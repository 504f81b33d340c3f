import FuturesDesk.Keyed
import Mathlib.Data.List.Nodup
import Mathlib.Logic.Function.Basic

/-! Keyed entries as a map: what stays and what is new after a put, and that no key comes twice. The
same for slots, which are functions of the key. -/
namespace FuturesDesk.Keyed
variable {κ ν : Type} [DecidableEq κ]

theorem mem_of_find? {key : κ} {value : ν} {entries : List (κ × ν)}
    (found : find? key entries = some value) : (key, value) ∈ entries := by
  induction entries with
  | nil => cases found
  | cons entry rest ih =>
    obtain ⟨k, v⟩ := entry
    rw [find?] at found
    split at found
    case isTrue same =>
      obtain rfl := same
      obtain rfl := Option.some.inj found
      exact List.mem_cons_self
    case isFalse => exact List.mem_cons_of_mem _ (ih found)

theorem mem_put {key : κ} {value : ν} {entries : List (κ × ν)} {entry : κ × ν}
    (member : entry ∈ put key value entries) : entry = (key, value) ∨ entry ∈ entries := by
  induction entries with
  | nil => exact .inl (List.mem_singleton.mp member)
  | cons first rest ih =>
    obtain ⟨k, v⟩ := first
    rw [put] at member
    split at member
    · rcases List.mem_cons.mp member with new | old
      · exact .inl new
      · exact .inr (List.mem_cons_of_mem _ old)
    · rcases List.mem_cons.mp member with same | later
      · exact .inr (same ▸ List.mem_cons_self)
      · exact (ih later).imp_right (List.mem_cons_of_mem _)

theorem remove_put (key : κ) (value : ν) (entries : List (κ × ν)) :
    remove key (put key value entries) = remove key entries := by
  induction entries with
  | nil => simp [put, remove]
  | cons first rest ih =>
    obtain ⟨k, v⟩ := first
    rw [put]
    split
    case isTrue same => simp [remove, same]
    case isFalse other =>
      simp only [remove, List.filter_cons] at ih ⊢
      rw [ih]

theorem remove_remove (key : κ) (entries : List (κ × ν)) :
    remove key (remove key entries) = remove key entries := by
  simp [remove]

theorem keys_put (key : κ) (value : ν) (entries : List (κ × ν)) :
    (put key value entries).map Prod.fst =
      if key ∈ entries.map Prod.fst then entries.map Prod.fst
      else entries.map Prod.fst ++ [key] := by
  induction entries with
  | nil => simp [put]
  | cons first rest ih =>
    obtain ⟨k, v⟩ := first
    rw [put]
    split
    case isTrue same => simp [same]
    case isFalse other =>
      rw [List.map_cons, ih]
      by_cases member : key ∈ rest.map Prod.fst
      · simp only [if_pos member, List.map_cons, if_pos (List.mem_cons_of_mem k member)]
      · have absent : key ∉ k :: rest.map Prod.fst := by
          simp only [List.mem_cons, not_or]
          exact ⟨Ne.symm other, member⟩
        simp only [if_neg member, List.map_cons, if_neg absent, List.cons_append]

theorem nodup_put {key : κ} {value : ν} {entries : List (κ × ν)}
    (once : (entries.map Prod.fst).Nodup) : ((put key value entries).map Prod.fst).Nodup := by
  rw [keys_put]
  split
  · exact once
  case isFalse absent =>
    rw [List.nodup_append]
    refine ⟨once, by simp, ?_⟩
    rintro a member b only rfl
    exact absent (List.mem_singleton.mp only ▸ member)

theorem nodup_remove {key : κ} {entries : List (κ × ν)} (once : (entries.map Prod.fst).Nodup) :
    ((remove key entries).map Prod.fst).Nodup :=
  once.sublist (List.filter_sublist.map _)

theorem find?_eq_some_iff {key : κ} {value : ν} {entries : List (κ × ν)}
    (once : (entries.map Prod.fst).Nodup) :
    find? key entries = some value ↔ (key, value) ∈ entries := by
  refine ⟨mem_of_find?, ?_⟩
  induction entries with
  | nil => nofun
  | cons entry rest ih =>
    obtain ⟨k, v⟩ := entry
    obtain ⟨absent, once⟩ := List.nodup_cons.mp once
    intro member
    rw [find?]
    rcases List.mem_cons.mp member with same | later
    · obtain ⟨rfl, rfl⟩ := Prod.mk.inj same
      exact if_pos rfl
    · have other : k ≠ key := by
        rintro rfl
        exact absent (List.mem_map.mpr ⟨_, later, rfl⟩)
      rw [if_neg other]
      exact ih once later

/-- What is found does not depend on the order of the entries. -/
theorem find?_perm {entries other : List (κ × ν)} (once : (entries.map Prod.fst).Nodup)
    (same : other.Perm entries) (key : κ) : find? key other = find? key entries := by
  have alsoOnce : (other.map Prod.fst).Nodup := (same.map Prod.fst).nodup_iff.mpr once
  ext value
  rw [find?_eq_some_iff alsoOnce, find?_eq_some_iff once, same.mem_iff]

theorem of_update {slots : κ → Option ν} {i j : κ} {new : Option ν} {value : ν}
    (held : Function.update slots i new j = some value) :
    (j = i ∧ new = some value) ∨ (j ≠ i ∧ slots j = some value) := by
  rw [Function.update_apply] at held
  split at held
  case isTrue same => exact .inl ⟨same, held⟩
  case isFalse other => exact .inr ⟨other, held⟩

end FuturesDesk.Keyed
