/-!
# Words and their bytes

Registers, addresses and the bus carry 16-bit words; memory and the arithmetic unit carry bytes.
A pair of registers holds its high byte first, an operand in memory its low byte first, so both
orders are built from the one joining function of this module.  Joining and splitting are
inverse to each other: `low_ofBytes`, `high_ofBytes` and `ofBytes_high_low`.
-/

namespace Micro8080.Word

def low (w : UInt16) : UInt8 := UInt8.ofNat w.toNat

def high (w : UInt16) : UInt8 := UInt8.ofNat (w.toNat / 256)

/-- The word with the given high and low bytes. -/
def ofBytes (high low : UInt8) : UInt16 := UInt16.ofNat (high.toNat * 256 + low.toNat)

@[simp] theorem toNat_low (w : UInt16) : (low w).toNat = w.toNat % 256 := by
  simp [low]

@[simp] theorem toNat_high (w : UInt16) : (high w).toNat = w.toNat / 256 := by
  have := w.toNat_lt
  simp only [high, UInt8.toNat_ofNat']
  omega

@[simp] theorem toNat_ofBytes (h l : UInt8) :
    (ofBytes h l).toNat = h.toNat * 256 + l.toNat := by
  have := h.toNat_lt
  have := l.toNat_lt
  simp only [ofBytes, UInt16.toNat_ofNat']
  omega

@[simp] theorem low_ofBytes (h l : UInt8) : low (ofBytes h l) = l := by
  apply UInt8.toNat_inj.1
  have := l.toNat_lt
  simp only [toNat_low, toNat_ofBytes]
  omega

@[simp] theorem high_ofBytes (h l : UInt8) : high (ofBytes h l) = h := by
  apply UInt8.toNat_inj.1
  have := l.toNat_lt
  simp only [toNat_high, toNat_ofBytes]
  omega

@[simp] theorem ofBytes_high_low (w : UInt16) : ofBytes (high w) (low w) = w := by
  apply UInt16.toNat_inj.1
  simp only [toNat_ofBytes, toNat_high, toNat_low]
  omega

end Micro8080.Word
