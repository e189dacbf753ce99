import Mathlib.Data.List.Chain
import Mathlib.Data.Nat.Digits.Defs
import Micro8080.Proofs.CommandLine.Arguments
import Micro8080.Proofs.CommandLine.Streams

/-! # Listings

A listing goes through an image instruction by instruction.  Its rows divide the image
(`Partitions`): each next row starts where the one before ends, and their bytes, one after the
other, are the image.  An instruction that runs past the end of the image is read on in the zeros
after it, and from address zero on after the end of memory, but its row shows only the bytes that
the image has.

Each instruction takes at least one byte, which is why the walk ends and gets to the end of the
image within as many rows as there are bytes (`partitions_listingFrom`).

A line is spelled out character by character (`lineOf`), with digits and columns of its own, and the
formats of the command line are proved to come to the same (`rowText_append_bytesText`).
-/

namespace Micro8080

theorem Instruction.byteLength_pos (i : Instruction) : 0 < i.byteLength := by
  cases i <;> exact Nat.succ_pos _

/-- Memory with an image from address zero on, and zeros after it. -/
def Memory.ofImage (image : Array UInt8) : Memory :=
  { bytes := .ofFn fun i => image[i.val]?.getD 0 }

theorem Memory.load_of_fits {image : Array UInt8} (fits : image.size ≤ Memory.capacity) :
    ({} : Memory).load image = .ok (.ofImage image) := by
  simp only [Memory.load, if_pos fits, Memory.ofImage, Fin.getElem_fin, Vector.getElem_replicate]

end Micro8080

namespace Micro8080.CommandLine

/-! ## Rows -/

/-- The rows divide the image from an address on. -/
structure Partitions (image : Array UInt8) (start : Nat)
    (rows : List (Listing.Row × List UInt8)) : Prop where
  /-- The first row starts at the address. -/
  starts : ∀ row ∈ rows.head?, row.1.address.toNat = start
  /-- Each next row starts where the one before ends. -/
  follows : rows.IsChain fun row next =>
    next.1.address.toNat = row.1.address.toNat + row.1.length
  /-- Each row is the instruction at its address. -/
  reads : ∀ row ∈ rows, row.1 = (Memory.ofImage image).disassemble row.1.address
  /-- Each row has the bytes of its instruction, as far as the image has them. -/
  bytes : ∀ row ∈ rows,
    row.2 ≠ [] ∧ row.2 = (image.toList.drop row.1.address.toNat).take row.1.length
  /-- No byte is lost, repeated or invented. -/
  covers : rows.flatMap Prod.snd = image.toList.drop start
  few : rows.length ≤ image.size - start

variable {image : Array UInt8} {start : Nat} {rows : List (Listing.Row × List UInt8)}

theorem Partitions.nil (done : image.size ≤ start) : Partitions image start [] where
  starts := nofun
  follows := .nil
  reads := nofun
  bytes := nofun
  covers := (List.drop_eq_nil_of_le done).symm
  few := Nat.zero_le _

theorem Partitions.cons (fits : image.size ≤ Memory.capacity) (within : start < image.size)
    (rest : Partitions image
      (start + ((Memory.ofImage image).disassemble (.ofNat start)).length) rows) :
    let row := (Memory.ofImage image).disassemble (.ofNat start)
    Partitions image start
      ((row, (image.toList.drop start).take row.length) :: rows) := by
  intro row
  have address : row.address.toNat = start :=
    UInt16.toNat_ofNat_of_lt (Nat.lt_of_lt_of_le within (Nat.le_trans fits (by decide)))
  have length : 0 < row.length := Instruction.byteLength_pos _
  refine ⟨?starts, ?follows, ?reads, ?bytes, ?covers, ?few⟩
  case starts =>
    rintro _ ⟨⟩
    exact address
  case follows =>
    refine rest.follows.cons fun next first => ?_
    rw [rest.starts next first, address]
  case reads => exact List.forall_mem_cons.2 ⟨rfl, rest.reads⟩
  case bytes =>
    refine List.forall_mem_cons.2 ⟨⟨?_, by rw [address]⟩, rest.bytes⟩
    simp only [ne_eq, List.take_eq_nil_iff, List.drop_eq_nil_iff, Array.length_toList]
    omega
  case covers =>
    rw [List.flatMap_cons, rest.covers, ← List.drop_drop, List.take_append_drop]
  case few =>
    have few := rest.few
    rw [List.length_cons]
    change rows.length ≤ image.size - (start + row.length) at few
    omega

/-- As many rows as there are bytes left are enough. -/
theorem partitions_listingFrom (fits : image.size ≤ Memory.capacity) (n start : Nat)
    (enough : image.size ≤ start + n) :
    Partitions image start (listingFrom (.ofImage image) image n start) := by
  induction n generalizing start with
  | zero => exact .nil enough
  | succ n ih =>
    rw [listingFrom]
    split
    next within =>
      have length := Instruction.byteLength_pos
        (.decode ((Memory.ofImage image).read (.ofNat start)))
      have rest := ih (start + ((Memory.ofImage image).disassemble (.ofNat start)).length) (by
        simp only [Memory.disassemble]
        omega)
      have row := Partitions.cons fits within rest
      simp only [Array.toList_extract, List.extract_eq_take_drop, Nat.add_sub_cancel_left]
      exact row
    next past => exact .nil (Nat.le_of_not_lt past)

/-! ## Lines -/

def capital (digit : Nat) : Char := "0123456789ABCDEF".toList.getD digit ' '

/-- The last hexadecimal digits of a number, to a width. -/
def digits : Nat → Nat → List Char
  | 0, _ => []
  | width + 1, n => digits width (n / 16) ++ [capital (n % 16)]

/-- A text at the beginning of a column, and blanks after it. -/
def column (width : Nat) (text : String) : String :=
  .ofList (text.toList ++ .replicate (width - text.toList.length) ' ')

/-- The first name that a list of labels has for an address, or nothing. -/
def labelOf (labels : Labels) (a : UInt16) : String :=
  ((labels.filter fun label => label.2 = a).map Prod.fst).headD ""

/-- A line of a listing: the address in four digits, its label and the text of the instruction in
columns, and two digits for each byte. -/
def lineOf (labels : Labels) (row : Listing.Row × List UInt8) : String :=
  .ofList (digits 4 row.1.address.toNat) ++ " " ++ column 10 (labelOf labels row.1.address) ++ " " ++
    column 14 row.1.text ++ "  " ++
    " ".intercalate (row.2.map fun b => .ofList (digits 2 b.toNat))

theorem leftpad_toDigits {n width : Nat} (fits : n < 16 ^ (width + 1)) :
    ((Nat.toDigits 16 n).leftpad (width + 1) '0').map Char.toUpper = digits (width + 1) n := by
  have upper : ∀ d < 16, d.digitChar.toUpper = capital d := by decide
  induction width generalizing n with
  | zero =>
    rw [Nat.zero_add, Nat.pow_one] at fits
    rw [Nat.toDigits_of_lt_base fits, digits, Nat.mod_eq_of_lt fits]
    exact congrArg (fun c => [c]) (upper n fits)
  | succ width ih =>
    have next : n / 16 < 16 ^ (width + 1) :=
      Nat.div_lt_of_lt_mul (by rwa [Nat.pow_succ, Nat.mul_comm] at fits)
    have split : (Nat.toDigits 16 n).leftpad (width + 2) '0' =
        (Nat.toDigits 16 (n / 16)).leftpad (width + 1) '0' ++ [(n % 16).digitChar] := by
      rw [Nat.toDigits_eq_if (by decide)]
      split
      next small =>
        rw [Nat.div_eq_of_lt small, Nat.mod_eq_of_lt small]
        simp [List.leftpad, List.replicate_succ']
      next large => simp [List.leftpad]
    rw [split, List.map_append, ih next, digits]
    exact congrArg (fun c => _ ++ [c]) (upper _ (Nat.mod_lt n (by decide)))

theorem hexCapital_eq {n width : Nat} (fits : n < 16 ^ (width + 1)) :
    Numeral.hexCapital (width + 1) n = .ofList (digits (width + 1) n) := by
  rw [← String.toList_inj, String.toList_ofList, ← leftpad_toDigits fits]
  simp only [Numeral.hexCapital, Numeral.padded, String.toUpper, String.toList_map,
    String.toList_ofList]

theorem padRight_eq (width : Nat) (text : String) : padRight width text = column width text := by
  rw [← String.toList_inj, padRight, column, String.toList_append, String.toList_ofList,
    String.toList_ofList, String.length_toList]

theorem getD_nameAt? (labels : Labels) (a : UInt16) :
    (labels.nameAt? a).getD "" = labelOf labels a := by
  rw [Labels.nameAt?, labelOf, ← List.head?_filter, ← List.head?_map, List.headD_eq_head?_getD]
  rfl

theorem rowText_append_bytesText (labels : Labels) (row : Listing.Row × List UInt8) :
    rowText labels row.1 ++ "  " ++ bytesText row.2 = lineOf labels row := by
  have address : row.1.address.toNat < 16 ^ (3 + 1) := row.1.address.toNat_lt
  have byte (b : UInt8) : Numeral.hexCapital 2 b.toNat = .ofList (digits 2 b.toNat) :=
    hexCapital_eq (show b.toNat < 16 ^ (1 + 1) from b.toNat_lt)
  simp only [rowText, bytesText, hexCapital_eq address, byte, padRight_eq, getD_nameAt?, lineOf]

variable {files : Files} {logFilter : String} {args : List String} {a : Arguments}
  {program : Program}

/-- A listing shows rows that divide the image of a program, with all of its bytes. -/
theorem listing_partitions (request : Request.ofArguments args = .ok (.carryOut a))
    (lists : a.command = .disassemble) (given : Given files a program) :
    ∃ rows, Partitions program.image 0 rows ∧
      (execute files logFilter args).status = 0 ∧
      (execute files logFilter args).out.data.toList =
        textOf (rows.map (lineOf program.labels)) := by
  have fits := program.fits
  have partitions := partitions_listingFrom fits program.image.size 0 (by omega)
  refine ⟨listing (.ofImage program.image) program.image, partitions, ?_⟩
  obtain ⟨f, lines, start⟩ := exists_holds_ofArguments a.verbosity logFilter
  have holds := (start a rfl).printAll (lineOf program.labels)
    (listing (.ofImage program.image) program.image)
  have executed := execute_of_given request given logFilter
  simp only [perform, lists, listProgram, Memory.load_of_fits fits,
    rowText_append_bytesText] at executed
  rw [executed]
  exact ⟨rfl, holds.terminal.streams.out_of_silent⟩

/-- The last instruction of this image has one byte of three. -/
theorem listing_partitions_cut :
    let program : Program := ⟨#[0x3E, 0x05, 0xC3], [], by decide⟩
    let files : Files := fun _ => .ok ⟨program.image⟩
    ∃ rows, Partitions program.image 0 rows ∧
      (execute files "" ["disasm", "prog.bin"]).status = 0 ∧
      (execute files "" ["disasm", "prog.bin"]).out.data.toList =
        textOf (rows.map (lineOf [])) := by
  intro program files
  have path : Spells .disassemble ["prog.bin"] (.input "prog.bin") := .input (by decide)
  have request : Request.ofArguments ["disasm", "prog.bin"] = _ :=
    ofArguments_of_reads rfl (.cons path .nil) rfl
  exact listing_partitions request rfl ⟨rfl, rfl⟩

end Micro8080.CommandLine
