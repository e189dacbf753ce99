import Micro8080.Debugger.Basic

/-! # Labels of addresses

A label map takes names to addresses: a name that is given twice has the address given last.  Seen
from the other side an address may have several names, and the first of them in the order of names
is the one that it goes by (`nameAt?_ofList`).  That the look-up finds it is due to the order in
which labels are kept, `Ascending`.
-/

namespace Micro8080.Labels

/-- The address that is given last for a name. -/
def placed? (entries : List (String × UInt16)) (name : String) : Option UInt16 :=
  (entries.reverse.find? fun e => e.1 == name).map Prod.snd

/-- Labels in the order of their names, each name once. -/
def Ascending (labels : Labels) : Prop := labels.Pairwise fun e f => e.1 < f.1

theorem addressOf?_insert (name n : String) (a : UInt16) (labels : Labels) :
    addressOf? (insert name a labels) n = if n = name then some a else addressOf? labels n := by
  induction labels with
  | nil => by_cases same : n = name <;> grind [insert, addressOf?]
  | cons e rest ih =>
    obtain ⟨m, b⟩ := e
    simp only [insert]
    by_cases same : name = m
    · rw [if_pos same]
      grind [addressOf?]
    · rw [if_neg same]
      by_cases before : name < m
      · rw [if_pos before]
        grind [addressOf?]
      · rw [if_neg before]
        grind [addressOf?]

theorem addressOf?_ofList (entries : List (String × UInt16)) (n : String) :
    addressOf? (ofList entries) n = placed? entries n := by
  -- stronger, for the induction: entries come on top of labels that are there already
  have onto (labels : Labels) :
      addressOf? (entries.foldl (fun labels e => insert e.1 e.2 labels) labels) n =
        (placed? entries n).or (addressOf? labels n) := by
    induction entries generalizing labels with
    | nil => rfl
    | cons e rest ih =>
      rw [List.foldl_cons, ih, addressOf?_insert]
      simp only [placed?, List.reverse_cons, List.find?_append]
      by_cases same : n = e.1 <;> cases rest.reverse.find? fun e => e.1 == n <;>
        grind
  rw [ofList, onto]
  cases placed? entries n <;> rfl

theorem ascending_insert (name : String) (a : UInt16) {labels : Labels}
    (h : labels.Ascending) : (insert name a labels).Ascending := by
  have mem : ∀ labels : Labels, ∀ e ∈ insert name a labels, e.1 = name ∨ e ∈ labels := by
    intro labels
    induction labels with
    | nil => simp [insert]
    | cons f rest ih => grind [insert]
  induction labels with
  | nil => exact List.pairwise_singleton ..
  | cons f rest ih =>
    obtain ⟨later, ordered⟩ := List.pairwise_cons.1 h
    simp only [insert]
    by_cases same : name = f.1
    · rw [if_pos same]
      subst same
      exact List.pairwise_cons.2 ⟨later, ordered⟩
    · rw [if_neg same]
      by_cases before : name < f.1
      · rw [if_pos before]
        refine List.pairwise_cons.2 ⟨?_, h⟩
        intro e there
        rcases List.mem_cons.1 there with rfl | there
        · exact before
        · exact String.lt_trans before (later e there)
      · rw [if_neg before]
        refine List.pairwise_cons.2 ⟨?_, ih ordered⟩
        intro e there
        rcases mem rest e there with own | there
        · grind
        · exact later e there

theorem ascending_ofList (entries : List (String × UInt16)) : (ofList entries).Ascending := by
  have onto {labels : Labels} (h : labels.Ascending) :
      Ascending (entries.foldl (fun labels e => insert e.1 e.2 labels) labels) := by
    induction entries generalizing labels with
    | nil => exact h
    | cons e rest ih => exact ih (ascending_insert e.1 e.2 h)
  exact onto List.Pairwise.nil

/-- Among ascending labels the first one found at an address is the least. -/
theorem Ascending.nameAt?_eq_some {labels : Labels} (h : labels.Ascending) {a : UInt16}
    {name : String} (found : labels.nameAt? a = some name) :
    labels.addressOf? name = some a ∧
      ∀ n, labels.addressOf? n = some a → name ≤ n := by
  induction labels with
  | nil => cases found
  | cons e rest ih =>
    obtain ⟨later, ordered⟩ := List.pairwise_cons.1 h
    have least : ∀ n b, addressOf? rest n = some b → e.1 < n := by
      intro n b address
      simp only [addressOf?, Option.map_eq_some_iff] at address
      obtain ⟨f, there, -⟩ := address
      have named := List.find?_some there
      have before := later f (List.mem_of_find?_eq_some there)
      grind
    by_cases here : e.2 = a
    · have own : e.1 = name := by simpa [nameAt?, here] using found
      subst own
      refine ⟨by simp [addressOf?, here], ?_⟩
      intro n address
      by_cases same : e.1 = n
      · exact same ▸ String.le_refl _
      · have further : addressOf? rest n = some a := by simpa [addressOf?, same] using address
        have before := least n a further
        grind
    · have further : nameAt? rest a = some name := by simpa [nameAt?, here] using found
      obtain ⟨address, first⟩ := ih ordered further
      have ne : e.1 ≠ name := fun same => by
        have before := least name a address
        grind
      refine ⟨by simpa [addressOf?, ne] using address, ?_⟩
      intro n other
      by_cases same : e.1 = n
      · exact absurd (by simpa [addressOf?, same] using other) here
      · exact first n (by simpa [addressOf?, same] using other)

theorem nameAt?_eq_none {labels : Labels} {a : UInt16} (missing : labels.nameAt? a = none)
    (n : String) : labels.addressOf? n ≠ some a := by
  intro address
  simp only [nameAt?, Option.map_eq_none_iff, List.find?_eq_none, beq_iff_eq] at missing
  simp only [addressOf?, Option.map_eq_some_iff] at address
  obtain ⟨e, there, at_a⟩ := address
  exact missing e (List.mem_of_find?_eq_some there) at_a

/-- The name that an address goes by is the first of its names. -/
theorem nameAt?_ofList (entries : List (String × UInt16)) (a : UInt16) :
    (∃ name, (ofList entries).nameAt? a = some name ∧ placed? entries name = some a ∧
        ∀ n, placed? entries n = some a → name ≤ n) ∨
      ((ofList entries).nameAt? a = none ∧ ∀ n, placed? entries n ≠ some a) := by
  simp only [← addressOf?_ofList]
  cases found : (ofList entries).nameAt? a with
  | some name => exact .inl ⟨name, rfl, (ascending_ofList entries).nameAt?_eq_some found⟩
  | none => exact .inr ⟨rfl, nameAt?_eq_none found⟩

end Micro8080.Labels
