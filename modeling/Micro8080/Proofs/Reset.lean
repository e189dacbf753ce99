import Micro8080.FrontPanel
import Micro8080.Proofs.Computer.Transcript
import Micro8080.Proofs.Debugger.Host

/-! # Resets

A reset asks a computer for nothing but its configuration.  Whatever the computer was doing, it was
just switched on afterwards, with the image in memory if it fits (`Computer.reset_of_fits`), and with
empty memory if it does not (`Computer.reset_of_too_large`).

What is built on resets inherits this.  A debugger that is restarted is a new one, up to its
breakpoints (`Debugger.restart_accessAll`).  A front panel returns to the image that it keeps, and
this is the last one that it was given and that fitted (`FrontPanel.image_performAll`).
-/

namespace Micro8080

/-! ## Computers -/

namespace Computer

variable {image : Array UInt8}

/-- A computer that was just switched on with an image in memory: zeros after the image, nothing in
any other part, nothing shown, no fault, and the reset line down. -/
def loaded (k : Config) (image : Array UInt8) : Computer :=
  let m : Machine := { memory := { bytes := .ofFn fun i => image[i.val]?.getD 0 } }
  { machine := m, config := k, history := powerOnHistory m k }

/-- A reset does not look at the machine that it replaces, nor at the history. -/
theorem reset_eq_new (c : Computer) (image : Array UInt8) :
    c.reset image = (new c.config).reset image := rfl

theorem reset_of_fits (c : Computer) (fits : image.size ≤ 2048) :
    c.reset image = (loaded c.config image, .ok ()) := by
  simp only [reset, Machine.reset_eq_powerOn, Machine.powerOn_of_fits fits]
  rfl

theorem reset_of_too_large (c : Computer) (large : 2048 < image.size) :
    c.reset image = (new c.config, .error (.imageTooLarge image.size 2048)) := by
  simp only [reset, Machine.reset_eq_powerOn, Machine.powerOn_of_too_large large]
  rfl

theorem loaded_empty (k : Config) : loaded k #[] = new k := by
  have zeros : (.ofFn fun i : Fin 2048 => (#[] : Array UInt8)[i.val]?.getD 0) =
      Vector.replicate 2048 0 := by
    ext i lt
    simp
  simp only [loaded, zeros]
  rfl

theorem size_history_loaded (k : Config) (image : Array UInt8) :
    (loaded k image).history.size = if k.recordHistory then 1 else 0 := by
  simp only [loaded, powerOnHistory]
  split <;> rfl

end Computer

/-! ## Debuggers -/

namespace Debugger

variable {ω : Type} (see : ω → Event → ω)

theorem access_keeps (d : Debugger) (w : ω) (a : Access) :
    (d.access see w a).1.program = d.program ∧
      (d.access see w a).1.computer.config = d.computer.config := by
  cases a with
  | computer call => exact ⟨rfl, Computer.perform_config see d.computer w call⟩
  | operation op =>
    refine performAll_invariant see
      (P := fun e => e.program = d.program ∧ e.computer.config = d.computer.config)
      ?_ ?_ (fun _ _ keeps => keeps) ?_ ⟨rfl, rfl⟩ w [op]
    · intro e c ⟨program, config⟩ ok
      have same : c.config = e.computer.config := congrArg (fun t => t.1.config) ok.symm
      rw [trackFrames_eq]
      exact ⟨program, same.trans config⟩
    · intro e c f ⟨program, config⟩ fails
      have same : c.config = e.computer.config := congrArg (fun t => t.1.config) fails.symm
      exact ⟨program, same.trans config⟩
    · intro e keeps
      rw [restart_eq]
      exact keeps

theorem accessAll_keeps (d : Debugger) (w : ω) (accesses : List Access) :
    (d.accessAll see w accesses).1.program = d.program ∧
      (d.accessAll see w accesses).1.computer.config = d.computer.config := by
  induction accesses generalizing d w with
  | nil => exact ⟨rfl, rfl⟩
  | cons a rest ih =>
    obtain ⟨program, config⟩ := access_keeps see d w a
    obtain ⟨program', config'⟩ := ih (d.access see w a).1 (d.access see w a).2
    exact ⟨program'.trans program, config'.trans config⟩

/-- A restart leads back to the new debugger, whatever became of it.  The breakpoints stay. -/
theorem restart_accessAll (p : Program) (k : Config) :
    ∃ d, new p k = .ok d ∧ ∀ (w : ω) (accesses : List Access),
      let e := (d.accessAll see w accesses).1
      e.restart = ({ d with breakpoints := e.breakpoints }, .ok ()) := by
  refine ⟨_, new_eq p k, fun w accesses => ?_⟩
  obtain ⟨program, config⟩ := accessAll_keeps see
    { computer := ((Computer.new k).reset p.image).1, program := p } w accesses
  intro e
  rw [restart_eq, show e.program = p from program, Computer.reset_eq_new,
    show e.computer.config = k from config]

end Debugger

/-! ## Front panels -/

namespace FrontPanel

/-- What a user does at a front panel. -/
inductive Use where
  | load (image : Array UInt8)
  | reset
  | pulseReset
  | halfTick
  | step
  | run (budget : Nat)
  deriving DecidableEq, Repr

/-- The image that a use leaves in the panel, if it brings one that fits. -/
def Use.image? : Use → Option (Array UInt8)
  | .load image => if image.size ≤ 2048 then some image else none
  | _ => none

variable {ω : Type} (see : ω → Event → ω)

def perform (p : FrontPanel) (w : ω) : Use → FrontPanel × ω
  | .load image => ((p.load image).1, w)
  | .reset => (p.reset.1, w)
  | .pulseReset => ({ p with computer := p.computer.pulseReset }, w)
  | .halfTick =>
    let t := p.computer.halfTick see w
    ({ p with computer := t.1 }, t.2.1)
  | .step => ((p.step see w).1, (p.step see w).2.1)
  | .run budget =>
    let t := p.computer.run see budget w
    ({ p with computer := t.1 }, t.2.1)

/-- The panel and its watcher after a list of uses, whatever came back. -/
def performAll (p : FrontPanel) (w : ω) : List Use → FrontPanel × ω
  | [] => (p, w)
  | use :: uses => performAll (p.perform see w use).1 (p.perform see w use).2 uses

theorem perform_image (p : FrontPanel) (w : ω) (use : Use) :
    (p.perform see w use).1.image = use.image?.getD p.image := by
  cases use with
  | load image =>
    by_cases fits : image.size ≤ 2048
    · simp only [perform, load, Computer.reset_of_fits _ fits, Use.image?, if_pos fits]
      rfl
    · have large := Nat.not_le.1 fits
      simp only [perform, load, Computer.reset_of_too_large _ large, Use.image?, if_neg fits]
      rfl
  | _ => rfl

theorem image_performAll (p : FrontPanel) (w : ω) (uses : List Use) :
    (p.performAll see w uses).1.image = (uses.filterMap Use.image?).getLast?.getD p.image := by
  induction uses generalizing p w with
  | nil => rfl
  | cons use uses ih =>
    rw [performAll, ih, perform_image]
    cases fits : use.image? with
    | none => simp [fits]
    | some image => simp [fits, List.getLast?_cons]

theorem perform_config (p : FrontPanel) (w : ω) (use : Use) :
    (p.perform see w use).1.computer.config = p.computer.config := by
  cases use with
  | load image =>
    simp only [perform, load, Computer.reset]
    split <;> next outcome => exact (congrArg (fun t => t.1.config) outcome).symm
  | _ => rfl

theorem performAll_keeps (p : FrontPanel) (fits : p.image.size ≤ 2048) (w : ω) (uses : List Use) :
    (p.performAll see w uses).1.computer.config = p.computer.config ∧
      (p.performAll see w uses).1.image.size ≤ 2048 := by
  induction uses generalizing p w with
  | nil => exact ⟨rfl, fits⟩
  | cons use uses ih =>
    have kept : (p.perform see w use).1.image.size ≤ 2048 := by
      rw [perform_image]
      cases use with
      | load image =>
        simp only [Use.image?]
        split
        · next fits => exact fits
        · exact fits
      | _ => exact fits
    obtain ⟨config, image⟩ := ih (p.perform see w use).1 kept (p.perform see w use).2
    exact ⟨config.trans (perform_config see p w use), image⟩

end FrontPanel

/-! ## All of them -/

variable {ω : Type} (see : ω → Event → ω)

/-- A reset leaks nothing and loads what it is given.  A computer is afterwards as if it was just
switched on, whatever it did before; a debugger is a new one, but for its breakpoints; and a front
panel has the last image that fitted, and returns to it. -/
theorem reset_leaks_nothing (w : ω) :
    (∀ (c : Computer) (image : Array UInt8), image.size ≤ 2048 →
      c.reset image = (Computer.new c.config).reset image ∧
      c.reset image = (Computer.loaded c.config image, .ok ()) ∧
      (c.config.recordHistory = true → (c.reset image).1.history.size = 1)) ∧
    (∀ (c : Computer) (image : Array UInt8), 2048 < image.size →
      c.reset image = ((c.reset #[]).1, .error (.imageTooLarge image.size 2048)) ∧
      c.reset #[] = (Computer.new c.config, .ok ())) ∧
    (∀ (p : Program) (k : Config), ∃ d, Debugger.new p k = .ok d ∧
      ∀ accesses,
        let e := (d.accessAll see w accesses).1
        e.restart = ({ d with breakpoints := e.breakpoints }, .ok ())) ∧
    (∀ (k : Config) (uses : List FrontPanel.Use),
      let p := (({ computer := .new k } : FrontPanel).performAll see w uses).1
      p.image = ((uses.filterMap FrontPanel.Use.image?).getLast?).getD #[] ∧
      p.reset = ({ p with computer := Computer.loaded k p.image }, .ok ())) := by
  have empty (c : Computer) : c.reset #[] = (Computer.new c.config, .ok ()) := by
    rw [Computer.reset_of_fits c (Nat.zero_le _), Computer.loaded_empty]
  refine ⟨fun c image fits => ?_, fun c image large => ?_, fun p k => ?_, fun k uses => ?_⟩
  · refine ⟨c.reset_eq_new image, c.reset_of_fits fits, fun records => ?_⟩
    rw [c.reset_of_fits fits, Computer.size_history_loaded, if_pos records]
  · rw [empty, c.reset_of_too_large large]
    exact ⟨rfl, rfl⟩
  · obtain ⟨d, fresh, restarts⟩ := Debugger.restart_accessAll see p k
    exact ⟨d, fresh, restarts w⟩
  · intro p
    obtain ⟨config, fits⟩ :=
      FrontPanel.performAll_keeps see { computer := .new k } (Nat.zero_le _) w uses
    refine ⟨FrontPanel.image_performAll see _ w uses, ?_⟩
    rw [FrontPanel.reset, Computer.reset_of_fits _ fits, config]
    rfl

/-- From a computer that a fault has stopped, with the reset line up. -/
theorem reset_leaks_nothing_stopped :
    let c := ((Computer.new {}).performAll (fun _ _ => ()) () [.reset #[0x27], .step, .pulseReset]).1
    let large : Array UInt8 := Array.replicate 2049 0
    c.reset #[0x76] = (Computer.new {}).reset #[0x76] ∧
    (c.reset #[0x76]).1.history.size = 1 ∧
    c.reset large = (Computer.new {}, .error (.imageTooLarge 2049 2048)) := by
  intro c large
  have config : c.config = {} := Computer.performAll_config _ _ _ _
  have size : large.size = 2049 := Array.size_replicate
  obtain ⟨fits, tooLarge, -⟩ := reset_leaks_nothing (fun (_ : Unit) _ => ()) ()
  obtain ⟨same, -, one⟩ := fits c #[0x76] (by decide)
  obtain ⟨refused, empty⟩ := tooLarge c large (by rw [size]; decide)
  rw [config] at same one empty
  rw [empty, size] at refused
  exact ⟨same, one rfl, refused⟩

end Micro8080
