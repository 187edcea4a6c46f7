namespace Filehost.Data.Checks

/-! Checks made one after another, of which the first that fails decides. -/

variable {ε α β : Type}

theorem bind_eq_ok {first : Except ε α} {next : α → Except ε β} {result : β} :
    first >>= next = .ok result ↔ ∃ value, first = .ok value ∧ next value = .ok result := by
  cases first with
  | error reason => simp [bind, Except.bind]
  | ok value => simp [bind, Except.bind]

theorem bind_eq_error {first : Except ε α} {next : α → Except ε β} {reason : ε} :
    first >>= next = .error reason ↔
      first = .error reason ∨ ∃ value, first = .ok value ∧ next value = .error reason := by
  cases first with
  | error other => simp [bind, Except.bind]
  | ok value => simp [bind, Except.bind]

theorem forM_cons (check : α → Except ε Unit) (value : α) (rest : List α) :
    (value :: rest).forM check = (check value >>= fun _ => rest.forM check) := rfl

theorem forM_ok {check : α → Except ε Unit} {list : List α} (passed : list.forM check = .ok ()) :
    ∀ value ∈ list, check value = .ok () := by
  induction list with
  | nil => nofun
  | cons value rest ih =>
      rw [forM_cons] at passed
      obtain ⟨done, first, later⟩ := bind_eq_ok.mp passed
      intro other member
      rcases List.mem_cons.mp member with rfl | listed
      · exact first
      · exact ih later other listed

theorem forM_error {check : α → Except ε Unit} {list : List α} {reason : ε}
    (failed : list.forM check = .error reason) : ∃ value ∈ list, check value = .error reason := by
  induction list with
  | nil => cases failed
  | cons value rest ih =>
      rw [forM_cons] at failed
      rcases bind_eq_error.mp failed with first | ⟨_, -, later⟩
      · exact ⟨value, List.mem_cons_self, first⟩
      · obtain ⟨other, listed, refused⟩ := ih later
        exact ⟨other, List.mem_cons_of_mem _ listed, refused⟩

end Filehost.Data.Checks
