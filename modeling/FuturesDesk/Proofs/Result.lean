import Mathlib.Data.List.Perm.Basic

/-! Results that may fail. What is done with a result, or with every element of a list, goes well
when each part of it does. -/
namespace FuturesDesk
variable {ε α β γ : Type}

theorem bind_ok {e : Except ε α} {f : α → Except ε β} {b : β} :
    (e >>= f) = .ok b ↔ ∃ a, e = .ok a ∧ f a = .ok b := by
  cases e with
  | error cause => simp [bind, Except.bind]
  | ok a => simp [bind, Except.bind]

theorem bind_error {e : Except ε α} {f : α → Except ε β} {cause : ε} :
    (e >>= f) = .error cause ↔ e = .error cause ∨ ∃ a, e = .ok a ∧ f a = .error cause := by
  cases e with
  | error other => simp [bind, Except.bind]
  | ok a => simp [bind, Except.bind]

theorem pure_ok {a b : α} : (pure a : Except ε α) = .ok b ↔ a = b := by
  simp [pure, Except.pure]

theorem mapM_ok {f : α → Except ε β} {l : List α} {m : List β} :
    l.mapM f = .ok m ↔ List.Forall₂ (fun a b => f a = .ok b) l m := by
  induction l generalizing m with
  | nil =>
    rw [List.mapM_nil, pure_ok, List.forall₂_nil_left_iff]
    exact eq_comm
  | cons a l ih =>
    rw [List.mapM_cons, bind_ok, List.forall₂_cons_left_iff]
    simp only [bind_ok, pure_ok, ih]
    constructor
    · rintro ⟨b, first, rest, others, rfl⟩
      exact ⟨b, rest, first, others, rfl⟩
    · rintro ⟨b, rest, first, others, rfl⟩
      exact ⟨b, first, rest, others, rfl⟩

theorem mapM_completes {f : α → Except ε β} {l : List α} :
    (∃ m, l.mapM f = .ok m) ↔ ∀ a ∈ l, ∃ b, f a = .ok b := by
  simp only [mapM_ok]
  constructor
  · rintro ⟨m, made⟩ a member
    induction made with
    | nil => cases member
    | cons first rest ih =>
      rcases List.mem_cons.mp member with rfl | member
      · exact ⟨_, first⟩
      · exact ih member
  · intro each
    induction l with
    | nil => exact ⟨[], .nil⟩
    | cons a l ih =>
      obtain ⟨b, first⟩ := each a List.mem_cons_self
      obtain ⟨m, rest⟩ := ih fun x member => each x (List.mem_cons_of_mem a member)
      exact ⟨b :: m, .cons first rest⟩

/-- A fold over results goes well if all of them do and the fold over what they are does. -/
theorem foldlM_ok_iff_mapM {f : α → Except ε β} {step : γ → β → Except ε γ} {l : List α}
    {first last : γ} : (l.foldlM (fun c a => do step c (← f a)) first) = .ok last ↔
      ∃ m, l.mapM f = .ok m ∧ m.foldlM step first = .ok last := by
  induction l generalizing first with
  | nil =>
    rw [List.foldlM_nil, pure_ok]
    constructor
    · rintro rfl
      exact ⟨[], rfl, rfl⟩
    · rintro ⟨_, ⟨⟩, ⟨⟩⟩
      rfl
  | cons a l ih =>
    simp only [List.foldlM_cons, List.mapM_cons, bind_ok, pure_ok, ih]
    constructor
    · rintro ⟨next, ⟨b, made, stepped⟩, m, rest, folded⟩
      refine ⟨b :: m, ⟨b, made, m, rest, rfl⟩, ?_⟩
      rw [List.foldlM_cons, stepped]
      exact folded
    · rintro ⟨_, ⟨b, made, m, rest, rfl⟩, folded⟩
      rw [List.foldlM_cons] at folded
      obtain ⟨next, stepped, folded⟩ := bind_ok.mp folded
      exact ⟨next, ⟨b, made, stepped⟩, m, rest, folded⟩

/-- A fold fails at one of its elements, after the ones before it went well. -/
theorem foldlM_error {step : γ → α → Except ε γ} {l : List α} {first : γ} {cause : ε}
    (failed : l.foldlM step first = .error cause) : ∃ front a rest before, l = front ++ a :: rest ∧
      front.foldlM step first = .ok before ∧ step before a = .error cause := by
  induction l generalizing first with
  | nil => cases failed
  | cons a l ih =>
    rw [List.foldlM_cons, bind_error] at failed
    rcases failed with here | ⟨next, stepped, later⟩
    · exact ⟨[], a, l, first, rfl, rfl, here⟩
    · obtain ⟨front, b, rest, before, rfl, folded, failed⟩ := ih later
      refine ⟨a :: front, b, rest, before, rfl, ?_, failed⟩
      rw [List.foldlM_cons, stepped]
      exact folded

/-- Elements in another order have the same results in another order. -/
theorem mapM_perm {f : α → Except ε β} {l other : List α} {m : List β} (same : other.Perm l)
    (made : l.mapM f = .ok m) : ∃ again, other.mapM f = .ok again ∧ again.Perm m := by
  obtain ⟨again, each, perm⟩ := List.perm_comp_forall₂ same (mapM_ok.mp made)
  exact ⟨again, mapM_ok.mpr each, perm⟩

theorem of_mem_mapM {f : α → Except ε β} {l : List α} {m : List β} (made : l.mapM f = .ok m)
    {b : β} (member : b ∈ m) : ∃ a ∈ l, f a = .ok b := by
  induction mapM_ok.mp made with
  | nil => cases member
  | cons first rest ih =>
    rcases List.mem_cons.mp member with rfl | member
    · exact ⟨_, List.mem_cons_self, first⟩
    · obtain ⟨a, held, found⟩ := ih (mapM_ok.mpr rest) member
      exact ⟨a, List.mem_cons_of_mem _ held, found⟩

end FuturesDesk
