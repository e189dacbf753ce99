import Micro8080.Console.Basic
import Micro8080.Proofs.Memory

/-! # What a console asks of its sink

A sink may take any part of what it is offered, and it may fail at any time.  `Traced` puts a record
around a sink, so that what a console asks of it can be read off whatever becomes of the bytes.  To
print bytes is to make attempts of one shape, up to the first that fails (`Delivery`), and the
attempts of any calls are those of one call after the other (`Faithful.answer`).

Hence the sink gets what the calls say, in order, up to the first failure, and nothing after it
(`Console.prints`).
-/

namespace Micro8080

/-! ## Attempts -/

/-- What was asked of a sink, and its answer. -/
inductive Attempt (σ : Type) [Sink σ] where
  | write (offered : List UInt8) (answer : Except (Sink.Failure σ) Nat)
  | flush (answer : Except (Sink.Failure σ) Unit)

variable {σ : Type} [Sink σ]

namespace Attempt

/-- The bytes that the sink took. -/
def taken : Attempt σ → List UInt8
  | write offered (.ok n) => offered.take n
  | _ => []

/-- Why the attempt failed.  To take nothing is to fail. -/
def failure? : Attempt σ → Option (Sink.Failure σ)
  | write _ (.ok 0) => some Sink.writeZero
  | write _ (.ok (_ + 1)) => none
  | write _ (.error failure) => some failure
  | flush (.ok _) => none
  | flush (.error failure) => some failure

end Attempt

/-- The bytes that a sink took in these attempts. -/
def written (as : List (Attempt σ)) : List UInt8 := as.flatMap Attempt.taken

theorem written_concat (as : List (Attempt σ)) (a : Attempt σ) :
    written (as ++ [a]) = written as ++ a.taken := by
  simp only [written, List.flatMap_append, List.flatMap_singleton]

theorem written_append (as bs : List (Attempt σ)) :
    written (as ++ bs) = written as ++ written bs :=
  List.flatMap_append

/-- The attempts that it takes to print bytes, and the failure that ends them. -/
inductive Delivery : List UInt8 → List (Attempt σ) → Option (Sink.Failure σ) → Prop
  | flushed : Delivery [] [.flush (.ok ())] none
  | unflushed (e : Sink.Failure σ) : Delivery [] [.flush (.error e)] (some e)
  | refused (b : UInt8) (bytes : List UInt8) (e : Sink.Failure σ) :
      Delivery (b :: bytes) [.write (b :: bytes) (.error e)] (some e)
  | stuck (b : UInt8) (bytes : List UInt8) :
      Delivery (b :: bytes) [.write (b :: bytes) (.ok 0)] (some Sink.writeZero)
  /-- The sink took the first byte and `n` more, and the rest is offered again. -/
  | took {b : UInt8} {bytes : List UInt8} {n : Nat} {as : List (Attempt σ)}
      {e : Option (Sink.Failure σ)} (rest : Delivery (bytes.drop n) as e) :
      Delivery (b :: bytes) (.write (b :: bytes) (.ok (n + 1)) :: as) e

namespace Delivery

variable {bytes : List UInt8} {as : List (Attempt σ)} {e : Option (Sink.Failure σ)}

theorem ne_nil (h : Delivery bytes as e) : as ≠ [] := by
  cases h <;> exact List.cons_ne_nil _ _

/-- Bytes are taken in order, and each one once. -/
theorem exists_rest (h : Delivery bytes as e) :
    ∃ rest, bytes = written as ++ rest ∧ (e = none → rest = []) := by
  induction h with
  | flushed => exact ⟨[], rfl, fun _ => rfl⟩
  | unflushed e => exact ⟨[], rfl, fun _ => rfl⟩
  | refused b bytes e => exact ⟨b :: bytes, rfl, fun none => nomatch none⟩
  | stuck b bytes => exact ⟨b :: bytes, rfl, fun none => nomatch none⟩
  | @took b bytes n as e rest ih =>
    obtain ⟨left, split, whole⟩ := ih
    have taken : written (.write (b :: bytes) (.ok (n + 1)) :: as) =
        b :: bytes.take n ++ written as := rfl
    refine ⟨left, ?_, whole⟩
    rw [taken, List.append_assoc, ← split, List.cons_append, List.take_append_drop]

theorem findSome_failure (h : Delivery bytes as e) : as.findSome? Attempt.failure? = e := by
  induction h with
  | took rest ih => exact ih
  | flushed => rfl
  | unflushed => rfl
  | refused => rfl
  | stuck => rfl

theorem failure_dropLast (h : Delivery bytes as e) : ∀ a ∈ as.dropLast, a.failure? = none := by
  induction h with
  | took rest ih =>
    rw [List.dropLast_cons_of_ne_nil rest.ne_nil]
    exact List.forall_mem_cons.2 ⟨rfl, ih⟩
  | flushed => exact fun _ => nofun
  | unflushed => exact fun _ => nofun
  | refused => exact fun _ => nofun
  | stuck => exact fun _ => nofun

end Delivery

/-! ## Traced sinks -/

/-- A sink, and all that was asked of it. -/
structure Traced (σ : Type) [Sink σ] where
  sink : σ
  attempts : List (Attempt σ) := []

instance : Sink (Traced σ) where
  Failure := Sink.Failure σ
  writeZero := Sink.writeZero
  message := Sink.message
  write t bytes :=
    let (answer, sink) := Sink.write t.sink bytes
    (answer, { sink, attempts := t.attempts ++ [.write bytes answer] })
  flush t :=
    let (answer, sink) := Sink.flush t.sink
    (answer, { sink, attempts := t.attempts ++ [.flush answer] })

namespace Traced

variable {t : Traced σ} {bytes : List UInt8} {s : σ}

theorem write_eq {answer : Except (Sink.Failure σ) Nat}
    (h : Sink.write t.sink bytes = (answer, s)) :
    Sink.write t bytes = (answer, ⟨s, t.attempts ++ [.write bytes answer]⟩) := by
  simp only [Sink.write, h]

theorem flush_eq {answer : Except (Sink.Failure σ) Unit} (h : Sink.flush t.sink = (answer, s)) :
    Sink.flush t = (answer, ⟨s, t.attempts ++ [.flush answer]⟩) := by
  simp only [Sink.flush, h]

end Traced

/-- What a sink is found to hold when asked, if it keeps what it took. -/
structure Sink.Holds (contents : σ → List UInt8) : Prop where
  write (s : σ) (bytes : List UInt8) :
    contents (Sink.write s bytes).2 =
      contents s ++ (Attempt.write bytes (Sink.write s bytes).1).taken
  flush (s : σ) : contents (Sink.flush s).2 = contents s

theorem Buffer.holds : Sink.Holds fun s : Buffer => s.bytes.toList where
  write s bytes := by
    simp only [Sink.write, Buffer.write]
    split
    · split <;> simp [Attempt.taken]
    · simp [Attempt.taken]
  flush s := rfl

namespace Console

/-! ## Deliveries -/

theorem deliver_nil (s : σ) : deliver s [] = Sink.flush s := by
  rw [deliver, Sink.writeAll]

section Offers

variable {s t : σ} {b : UInt8} {bytes : List UInt8}

theorem deliver_of_error {e : Sink.Failure σ} (h : Sink.write s (b :: bytes) = (.error e, t)) :
    deliver s (b :: bytes) = (.error e, t) := by
  rw [deliver, Sink.writeAll, h]

theorem deliver_of_zero (h : Sink.write s (b :: bytes) = (.ok 0, t)) :
    deliver s (b :: bytes) = (.error Sink.writeZero, t) := by
  rw [deliver, Sink.writeAll, h]

theorem deliver_of_taken {n : Nat} (h : Sink.write s (b :: bytes) = (.ok (n + 1), t)) :
    deliver s (b :: bytes) = deliver t (bytes.drop n) := by
  rw [deliver, Sink.writeAll, h, deliver]

end Offers

def resultOf {ε : Type} : Option ε → Except ε Unit
  | none => .ok ()
  | some e => .error e

/-- Whatever a sink answers, the attempts of a delivery are made, and a trace does not change what
becomes of the sink. -/
theorem exists_delivery (t : Traced σ) (bytes : List UInt8) :
    ∃ (as : List (Attempt σ)) (e : Option (Sink.Failure σ)) (s : σ),
      Delivery bytes as e ∧ deliver t bytes = (resultOf e, ⟨s, t.attempts ++ as⟩) ∧
        deliver t.sink bytes = (resultOf e, s) := by
  match bytes with
  | [] =>
    rw [deliver_nil, deliver_nil]
    match flush : Sink.flush t.sink with
    | (.ok u, s) => exact ⟨_, none, s, .flushed, Traced.flush_eq flush, rfl⟩
    | (.error e, s) => exact ⟨_, some e, s, .unflushed e, Traced.flush_eq flush, rfl⟩
  | b :: bytes =>
    match write : Sink.write t.sink (b :: bytes) with
    | (.error e, s) =>
      exact ⟨_, some e, s, .refused b bytes e, deliver_of_error (Traced.write_eq write),
        deliver_of_error write⟩
    | (.ok 0, s) =>
      exact ⟨_, some Sink.writeZero, s, .stuck b bytes, deliver_of_zero (Traced.write_eq write),
        deliver_of_zero write⟩
    | (.ok (n + 1), s) =>
      rw [deliver_of_taken (Traced.write_eq write), deliver_of_taken write]
      obtain ⟨as, e, u, delivery, traced, plain⟩ :=
        exists_delivery ⟨s, t.attempts ++ [.write (b :: bytes) (.ok (n + 1))]⟩ (bytes.drop n)
      rw [List.append_assoc] at traced
      exact ⟨_, e, u, .took delivery, traced, plain⟩
termination_by bytes.length
decreasing_by
  simp only [List.length_drop, List.length_cons]
  omega

theorem deliver_induction {P : σ → Prop} (write : ∀ s bytes, P s → P (Sink.write s bytes).2)
    (flush : ∀ s, P s → P (Sink.flush s).2) (s : σ) (bytes : List UInt8) (h : P s) :
    P (deliver s bytes).2 := by
  match bytes with
  | [] =>
    rw [deliver_nil]
    exact flush s h
  | b :: bytes =>
    have next := write s (b :: bytes) h
    match offered : Sink.write s (b :: bytes) with
    | (.error e, t) =>
      rw [offered] at next
      rwa [deliver_of_error offered]
    | (.ok 0, t) =>
      rw [offered] at next
      rwa [deliver_of_zero offered]
    | (.ok (n + 1), t) =>
      rw [offered] at next
      rw [deliver_of_taken offered]
      exact deliver_induction write flush t (bytes.drop n) next
termination_by bytes.length
decreasing_by
  simp only [List.length_drop, List.length_cons]
  omega

/-! ## Calls -/

/-- The bytes that a call asks to have printed: the character in E, or the text at DE up to the
first dollar sign, if memory has one at all. -/
def printed (call : SystemCall) (memory : Memory) : List UInt8 :=
  if call.function = 2 then [Word.low call.argument]
  else if call.function = 9 ∧ 0x24 ∈ memory.bytes then
    (memory.bytesFrom call.argument 2048).takeWhile (· ≠ 0x24)
  else []

/-- The console, one call later. -/
def counted (c : Console σ) : Console σ := { c with calls := c.calls + 1 }

/-- The console after some calls, each with the memory that it finds. -/
def answerAll (c : Console σ) (calls : List (SystemCall × Memory)) : Console σ :=
  calls.foldl (fun c k => (c.answer k.1 k.2).1) c

variable {c : Console σ} {bytes : List UInt8}

theorem answerAll_cons (c : Console σ) (k : SystemCall × Memory)
    (calls : List (SystemCall × Memory)) :
    c.answerAll (k :: calls) = (c.answer k.1 k.2).1.answerAll calls := rfl

/-- A call has its bytes printed, or else asks for none. -/
theorem answer_eq_or (c : Console σ) (call : SystemCall) (memory : Memory) :
    (c.answer call memory).1 = (c.counted.print (printed call memory)).1 ∨
      printed call memory = [] ∧ (c.answer call memory).1 = c.counted := by
  simp only [answer, request, printed, Memory.readUntil_eq, printCharacter, printText, terminator,
    Memory.capacity]
  by_cases character : call.function = 2
  · rw [if_pos character, if_pos character]
    exact .inl rfl
  · rw [if_neg character, if_neg character]
    by_cases text : call.function = 9
    · by_cases ends : (0x24 : UInt8) ∈ memory.bytes
      · rw [if_pos text, if_pos ends, if_pos ⟨text, ends⟩]
        exact .inl rfl
      · rw [if_pos text, if_neg ends, if_neg fun both => ends both.2]
        exact .inr ⟨rfl, rfl⟩
    · rw [if_neg text, if_neg fun both => text both.1]
      exact .inr ⟨rfl, rfl⟩

theorem print_of_failure (failed : c.failure ≠ none) (bytes : List UInt8) :
    (c.print bytes).1 = c := by
  obtain ⟨e, failure⟩ := Option.ne_none_iff_exists'.1 failed
  simp only [print, failure]

theorem print_of_deliver (going : c.failure = none) {e : Option (Sink.Failure σ)} {s : σ}
    (delivered : deliver c.sink bytes = (resultOf e, s)) :
    (c.print bytes).1 = { c with sink := s, failure := e } := by
  cases e with
  | none => simp only [print, going, delivered, resultOf]
  | some e => simp only [print, going, delivered, resultOf]

theorem sink_print (going : c.failure = none) (bytes : List UInt8) :
    (c.print bytes).1.sink = (deliver c.sink bytes).2 := by
  simp only [print, going]
  split <;> simp_all

theorem calls_print (c : Console σ) (bytes : List UInt8) : (c.print bytes).1.calls = c.calls := by
  simp only [print]
  repeat' split
  all_goals rfl

theorem calls_answerAll (c : Console σ) (calls : List (SystemCall × Memory)) :
    (c.answerAll calls).calls = c.calls + calls.length := by
  induction calls generalizing c with
  | nil => rfl
  | cons k calls ih =>
    have now : (c.answer k.1 k.2).1.calls = c.calls + 1 := by
      rcases c.answer_eq_or k.1 k.2 with prints | ⟨-, rests⟩
      · rw [prints, calls_print, counted]
      · rw [rests, counted]
    rw [answerAll_cons, ih, now, List.length_cons, Nat.add_assoc, Nat.add_comm 1]

/-- A failure is final: from then on calls are counted, and that is all. -/
theorem answerAll_of_failure (failed : c.failure ≠ none) (calls : List (SystemCall × Memory)) :
    c.answerAll calls = { c with calls := c.calls + calls.length } := by
  induction calls generalizing c with
  | nil => rfl
  | cons k calls ih =>
    have still : c.counted.failure ≠ none := failed
    have now : (c.answer k.1 k.2).1 = c.counted := by
      rcases c.answer_eq_or k.1 k.2 with prints | ⟨-, rests⟩
      · exact prints.trans (print_of_failure still _)
      · exact rests
    rw [answerAll_cons, now, ih still, List.length_cons, Nat.add_comm calls.length, ← Nat.add_assoc]
    rfl

theorem answerAll_induction {P : σ → Prop} (write : ∀ s bytes, P s → P (Sink.write s bytes).2)
    (flush : ∀ s, P s → P (Sink.flush s).2) (calls : List (SystemCall × Memory)) (h : P c.sink) :
    P (c.answerAll calls).sink := by
  induction calls generalizing c with
  | nil => exact h
  | cons k calls ih =>
    rw [answerAll_cons]
    refine ih ?_
    rcases c.answer_eq_or k.1 k.2 with prints | ⟨-, rests⟩
    · rw [prints]
      by_cases going : c.counted.failure = none
      · rw [sink_print going]
        exact deliver_induction write flush c.sink _ h
      · rw [print_of_failure going]
        exact h
    · rw [rests]
      exact h

/-! ## Traced consoles -/

def untraced (c : Console (Traced σ)) : Console σ where
  sink := c.sink.sink
  calls := c.calls
  failure := c.failure

theorem untraced_print (c : Console (Traced σ)) (bytes : List UInt8) :
    (c.print bytes).1.untraced = (c.untraced.print bytes).1 := by
  by_cases going : c.failure = none
  · obtain ⟨as, e, s, -, traced, plain⟩ := exists_delivery c.sink bytes
    have still : c.untraced.failure = none := going
    rw [print_of_deliver going traced, print_of_deliver still plain]
    rfl
  · have still : c.untraced.failure ≠ none := going
    rw [print_of_failure going, print_of_failure still]

theorem untraced_answer (c : Console (Traced σ)) (call : SystemCall) (memory : Memory) :
    (c.answer call memory).1.untraced = (c.untraced.answer call memory).1 := by
  simp only [answer]
  cases request call memory with
  | print bytes => exact untraced_print c.counted bytes
  | unterminated => rfl
  | unknown => rfl

theorem untraced_answerAll (c : Console (Traced σ)) (calls : List (SystemCall × Memory)) :
    (c.answerAll calls).untraced = c.untraced.answerAll calls := by
  induction calls generalizing c with
  | nil => rfl
  | cons k calls ih => rw [answerAll_cons, answerAll_cons, ih, untraced_answer]

/-- What has become of some calls that asked for `ideal`. -/
structure Faithful (c : Console (Traced σ)) (ideal : List UInt8) : Prop where
  ordered : written c.sink.attempts <+: ideal
  whole : c.failure = none → written c.sink.attempts = ideal
  first : c.sink.attempts.findSome? Attempt.failure? = c.failure
  last : ∀ a ∈ c.sink.attempts.dropLast, a.failure? = none

namespace Faithful

variable {c : Console (Traced σ)} {ideal : List UInt8}

theorem print (h : Faithful c ideal) (bytes : List UInt8) :
    Faithful (c.print bytes).1 (ideal ++ bytes) := by
  by_cases going : c.failure = none
  · obtain ⟨as, e, s, delivery, traced, -⟩ := exists_delivery c.sink bytes
    obtain ⟨rest, split, whole⟩ := delivery.exists_rest
    have before : ∀ a ∈ c.sink.attempts, a.failure? = none :=
      List.findSome?_eq_none_iff.1 (h.first.trans going)
    rw [print_of_deliver going traced]
    refine ⟨?_, fun done => ?_, ?_, fun a mem => ?_⟩
    · rw [split, written_append, h.whole going, ← List.append_assoc]
      exact List.prefix_append _ _
    · rw [split, whole done, written_append, h.whole going, List.append_nil]
    · rw [List.findSome?_append, h.first, going, delivery.findSome_failure]
      rfl
    · rw [List.dropLast_append_of_ne_nil delivery.ne_nil, List.mem_append] at mem
      exact mem.elim (before a) (delivery.failure_dropLast a)
  · rw [print_of_failure going]
    exact ⟨h.ordered.trans (List.prefix_append _ _), fun done => absurd done going, h.first, h.last⟩

theorem answer (h : Faithful c ideal) (call : SystemCall) (memory : Memory) :
    Faithful (c.answer call memory).1 (ideal ++ printed call memory) := by
  have counted : Faithful c.counted ideal := ⟨h.ordered, h.whole, h.first, h.last⟩
  rcases c.answer_eq_or call memory with prints | ⟨nothing, rests⟩
  · rw [prints]
    exact counted.print _
  · rw [rests, nothing, List.append_nil]
    exact counted

theorem answerAll (h : Faithful c ideal) (calls : List (SystemCall × Memory)) :
    Faithful (c.answerAll calls) (ideal ++ calls.flatMap fun k => printed k.1 k.2) := by
  induction calls generalizing c ideal with
  | nil => rwa [List.flatMap_nil, List.append_nil]
  | cons k calls ih =>
    rw [List.flatMap_cons, ← List.append_assoc]
    exact ih (h.answer k.1 k.2)

end Faithful

theorem contents_answerAll {contents : σ → List UInt8} (holds : Sink.Holds contents)
    {before : List UInt8} {c : Console (Traced σ)} (calls : List (SystemCall × Memory))
    (h : contents c.sink.sink = before ++ written c.sink.attempts) :
    contents (c.answerAll calls).sink.sink = before ++ written (c.answerAll calls).sink.attempts := by
  let Kept (t : Traced σ) : Prop := contents t.sink = before ++ written t.attempts
  refine answerAll_induction (P := Kept) (fun t bytes h => ?_) (fun t h => ?_) calls h
  · refine (holds.write t.sink bytes).trans ?_
    rw [h, List.append_assoc, ← written_concat]
    rfl
  · refine (holds.flush t.sink).trans (h.trans ?_)
    exact congrArg _ ((written_concat _ _).trans (List.append_nil _)).symm

/-- Whatever the sink and the calls are: the sink is asked to take what the calls print, in order
and each byte once, and all of it unless an attempt fails.  The first failure is kept, no attempt is
made after it, and all calls are counted.  That goes for the bytes that the sink holds as well, if it
keeps what it takes. -/
theorem prints (s : σ) (calls : List (SystemCall × Memory)) :
    let c := answerAll { sink := ({ sink := s } : Traced σ) } calls
    let ideal := calls.flatMap fun k => printed k.1 k.2
    c.untraced = answerAll { sink := s } calls ∧
    (∀ contents, Sink.Holds contents →
      contents c.untraced.sink = contents s ++ written c.sink.attempts) ∧
    written c.sink.attempts <+: ideal ∧
    (c.failure = none → written c.sink.attempts = ideal) ∧
    c.sink.attempts.findSome? Attempt.failure? = c.failure ∧
    (∀ a ∈ c.sink.attempts.dropLast, a.failure? = none) ∧
    (c.failure ≠ none → ∀ more, c.answerAll more = { c with calls := c.calls + more.length }) ∧
    c.calls = calls.length := by
  intro c ideal
  have start : Faithful { sink := ({ sink := s } : Traced σ) } [] :=
    ⟨List.nil_prefix, fun _ => rfl, rfl, fun _ => nofun⟩
  have faithful : Faithful c ideal := start.answerAll calls
  refine ⟨untraced_answerAll _ calls, fun contents holds => ?_, faithful.ordered, faithful.whole,
    faithful.first, faithful.last, answerAll_of_failure,
    (calls_answerAll _ calls).trans (Nat.zero_add _)⟩
  exact contents_answerAll holds calls (List.append_nil _).symm

/-- Where there is room for one byte only, the first of two is printed, and no more after that. -/
theorem prints_limited :
    let s : Buffer := { limit := some 1 }
    let calls : List (SystemCall × Memory) := [(⟨2, 0x41⟩, {}), (⟨2, 0x42⟩, {})]
    let c := answerAll { sink := ({ sink := s } : Traced Buffer) } calls
    c.failure = some .brokenPipe ∧ c.untraced.sink.bytes.toList = written c.sink.attempts ∧
      ∀ more, c.answerAll more = { c with calls := c.calls + more.length } := by
  intro s calls c
  obtain ⟨untraced, contents, -, -, -, -, final, -⟩ := prints s calls
  have failure : c.failure = some .brokenPipe := by
    have plain : (answerAll { sink := s } calls).failure = some .brokenPipe := by
      simp [answerAll, calls, answer, request, printCharacter, print, deliver, Sink.writeAll, s,
        Sink.write, Sink.flush, Buffer.write, Buffer.flush, Buffer.full, Buffer.room]
    rw [← plain, ← untraced]
    rfl
  exact ⟨failure, contents _ Buffer.holds, final (failure ▸ Option.some_ne_none _)⟩

end Console

end Micro8080
