import Steward.Proofs.Run.World

/-!
# What parties have been told

Each exchange of a party was made by one step of the run, in the store of that time, and was kept
ever since (`Step.exchanges`).  So what is true of an exchange when it is made, and is not undone by
later steps, is true of all that a party has been told.
-/

namespace Steward.Run

open Pass

variable {c : Cast} {w w' : World c}

/-- The step replies to the party `p`, which has been told `told` by then: the request is served, or
it is a status write that is accepted and logged. -/
inductive Replies (w w' : World c) (p : c.Party) (told : List Exchange) : Exchange → Prop where
  | served {x : Exchange} : Serves w.store x w'.store → Replies w w' p told x
  | accepted {q before : Resource} {document : Json.Members} {reply : Except Failure Resource} :
      w.store.current q = .ok before →
      Arrives (.ok (MemoryStore.written before document)) reply →
      w'.writes = ⟨p, told, before, MemoryStore.written before document⟩ :: w.writes →
      Replies w w' p told ⟨.updateStatus q document, reply⟩

/-- A list that was made longer by one item is split before that item, or at it. -/
theorem snoc_eq_append_cons {α : Type} {as told rest : List α} {x y : α}
    (h : as ++ [y] = told ++ x :: rest) :
    (∃ rest', as = told ++ x :: rest') ∨ (as = told ∧ y = x) := by
  rcases List.eq_nil_or_concat rest with rfl | ⟨rest', z, rfl⟩
  · obtain ⟨has, hy⟩ := List.append_inj' h rfl
    exact Or.inr ⟨has, List.head_eq_of_cons_eq hy⟩
  · have hlast : as ++ [y] = (told ++ x :: rest') ++ [z] := by rw [h]; simp
    exact Or.inl ⟨rest', (List.append_inj' hlast rfl).1⟩

/-- **Every exchange was made by a step.**  An exchange of a party after a step is one from before
the step, with the same ones before it, or the step makes it. -/
theorem Step.exchanges (h : Step w w') {t : Task c} (ht : t ∈ w'.tasks) {told rest : List Exchange}
    {x : Exchange} (hx : t.asked = told ++ x :: rest) :
    (∃ t₀ ∈ w.tasks, t₀.party = t.party ∧ ∃ rest₀, t₀.asked = told ++ x :: rest₀) ∨
      Replies w w' t.party told x := by
  -- one party has one exchange more
  have hreplied {pre post : List (Task c)} {t₀ t' : Task c} {y : Exchange}
      (htasks : w.tasks = pre ++ t₀ :: post) (ht : t ∈ pre ++ t' :: post)
      (hparty : t₀.party = t'.party) (hasked : t'.asked = t₀.asked ++ [y])
      (hy : Replies w w' t'.party t₀.asked y) :
      (∃ t₀ ∈ w.tasks, t₀.party = t.party ∧ ∃ rest₀, t₀.asked = told ++ x :: rest₀) ∨
        Replies w w' t.party told x := by
    rw [htasks]
    rcases List.mem_append.mp ht with ht | ht
    · exact Or.inl ⟨t, List.mem_append_left _ ht, rfl, rest, hx⟩
    rcases List.mem_cons.mp ht with rfl | ht
    · rcases snoc_eq_append_cons (hasked ▸ hx) with ⟨rest₀, hrest₀⟩ | ⟨rfl, rfl⟩
      · exact Or.inl ⟨t₀, List.mem_append_right _ List.mem_cons_self, hparty, rest₀, hrest₀⟩
      · exact Or.inr hy
    · exact Or.inl ⟨t, List.mem_append_right _ (List.mem_cons_of_mem _ ht), rfl, rest, hx⟩
  cases h with
  | begin p hp hgiven =>
    rcases List.mem_cons.mp ht with rfl | ht
    · cases told <;> cases hx
    · exact Or.inl ⟨t, ht, rfl, rest, hx⟩
  | ask htasks hserves => exact hreplied htasks ht rfl rfl (.served hserves)
  | write htasks hcurrent harrives =>
    rw [MemoryStore.updateStatus_of_current hcurrent] at harrives
    exact hreplied htasks ht rfl rfl (.accepted hcurrent harrives rfl)
  | @leave pre post t₀ htasks =>
    refine Or.inl ⟨t, ?_, rfl, rest, hx⟩
    rw [htasks]
    rcases List.mem_append.mp ht with ht | ht
    · exact List.mem_append_left _ ht
    · exact List.mem_append_right _ (List.mem_cons_of_mem _ ht)
  | edit kind ns name spec => exact Or.inl ⟨t, ht, rfl, rest, hx⟩
  | delete kind ns name now => exact Or.inl ⟨t, ht, rfl, rest, hx⟩

/-- What is logged stays logged. -/
theorem Step.writes_subset (h : Step w w') : w.writes ⊆ w'.writes := by
  cases h with
  | write htasks hcurrent harrives => exact List.subset_cons_self _ _
  | _ => exact List.Subset.refl _

end Steward.Run
