import Mathlib.Data.List.Chain
import Mathlib.Data.List.Forall2

/-! Lists cut into stretches of neighbours that have the same key, each as long as it can be. Lists
that correspond are cut alike; and cutting by a coarser key joins the stretches of a finer one. -/
namespace FuturesDesk

/-- One element or more, next to each other. -/
structure Stretch (α : Type) where
  first : α
  rest : List α
  deriving DecidableEq

namespace Stretch

variable {α β κ : Type}

def toList (s : Stretch α) : List α := s.first :: s.rest

def last (s : Stretch α) : α := s.rest.getLastD s.first

def push (s : Stretch α) (a : α) : Stretch α := ⟨s.first, s.rest ++ [a]⟩

def join (s : Stretch (Stretch α)) : Stretch α :=
  ⟨s.first.first, s.first.rest ++ s.rest.flatMap toList⟩

/-- The longest stretches of neighbours with the same key. -/
def cut [DecidableEq κ] (key : α → κ) : List α → List (Stretch α)
  | [] => []
  | a :: l =>
    match cut key l with
    | [] => [⟨a, []⟩]
    | s :: others => if key a = key s.first then ⟨a, s.toList⟩ :: others else ⟨a, []⟩ :: s :: others

structure Pairs (P : α → β → Prop) (s : Stretch α) (t : Stretch β) : Prop where
  first : P s.first t.first
  rest : List.Forall₂ P s.rest t.rest

@[simp] theorem mk_toList (a : α) (l : List α) : (⟨a, l⟩ : Stretch α).toList = a :: l := rfl

theorem getLast?_toList (s : Stretch α) : s.toList.getLast? = some s.last := by
  simp [toList, last, List.getLast?_cons, List.getLastD_eq_getLast?]

@[simp] theorem toList_push (s : Stretch α) (a : α) : (s.push a).toList = s.toList ++ [a] := rfl

@[simp] theorem last_push (s : Stretch α) (a : α) : (s.push a).last = a := by
  simp [last, push]

@[simp] theorem toList_join (s : Stretch (Stretch α)) :
    s.join.toList = s.toList.flatMap toList := rfl

theorem map_toList_join (f : α → β) (s : Stretch (Stretch α)) :
    s.join.toList.map f = (s.toList.map fun t => t.toList.map f).flatten := by
  rw [toList_join, List.flatMap_def, List.map_flatten, List.map_map]
  rfl

@[simp] theorem last_join (s : Stretch (Stretch α)) : s.join.last = s.last.last := by
  have ends := getLast?_toList s.join
  obtain ⟨front, whole⟩ := List.getLast?_eq_some_iff.mp (getLast?_toList s)
  rw [toList_join, whole, List.flatMap_append, List.flatMap_singleton, List.getLast?_append,
    getLast?_toList, Option.some_or] at ends
  exact (Option.some.inj ends).symm

/-- A stretch is one element, or a shorter stretch with one more. -/
@[elab_as_elim]
theorem push_induction {motive : Stretch α → Prop} (one : ∀ a, motive ⟨a, []⟩)
    (push : ∀ s a, motive s → motive (s.push a)) (s : Stretch α) : motive s := by
  obtain ⟨first, rest⟩ := s
  induction rest using List.reverseRecOn with
  | nil => exact one first
  | append_singleton rest a ih => exact push ⟨first, rest⟩ a ih

theorem sublist_firsts (stretches : List (Stretch α)) :
    (stretches.map first).Sublist (stretches.flatMap toList) := by
  induction stretches with
  | nil => exact .slnil
  | cons s rest ih =>
    rw [List.map_cons, List.flatMap_cons, toList, List.cons_append]
    exact (ih.trans (List.sublist_append_right _ _)).cons_cons _

theorem sublist_lasts (stretches : List (Stretch α)) :
    (stretches.map last).Sublist (stretches.flatMap toList) := by
  induction stretches with
  | nil => exact .slnil
  | cons s rest ih =>
    have own : [s.last].Sublist s.toList :=
      List.singleton_sublist.mpr (List.mem_of_getLast? (getLast?_toList s))
    rw [List.map_cons, List.flatMap_cons]
    exact own.append ih

/-- What no two stretches share is found at one place. -/
theorem existsUnique_index {P : Stretch α → Prop} {stretches : List (Stretch α)}
    (apart : stretches.Pairwise fun s t => ¬ (P s ∧ P t)) (present : ∃ s ∈ stretches, P s) :
    ∃! i : Nat, ∃ s : Stretch α, stretches[i]? = some s ∧ P s := by
  obtain ⟨s, member, holds⟩ := present
  obtain ⟨i, found⟩ := List.mem_iff_getElem?.mp member
  refine ⟨i, ⟨s, found, holds⟩, ?_⟩
  rintro j ⟨t, other, also⟩
  rw [List.pairwise_iff_getElem] at apart
  obtain ⟨inside, rfl⟩ := List.getElem?_eq_some_iff.mp found
  obtain ⟨within, rfl⟩ := List.getElem?_eq_some_iff.mp other
  rcases Nat.lt_trichotomy j i with before | same | after
  · exact absurd ⟨also, holds⟩ (apart j i within inside before)
  · exact same
  · exact absurd ⟨holds, also⟩ (apart i j inside within after)

section
variable {P : α → β → Prop} {s : Stretch α} {t : Stretch β}

theorem Pairs.toList (pairs : Pairs P s t) : List.Forall₂ P s.toList t.toList :=
  .cons pairs.first pairs.rest

theorem Pairs.last (pairs : Pairs P s t) : P s.last t.last := by
  have ends := List.rel_reverse pairs.toList
  have left := getLast?_toList s
  have right := getLast?_toList t
  rw [List.getLast?_eq_head?_reverse] at left right
  generalize s.toList.reverse = l, t.toList.reverse = m at ends left right
  cases ends with
  | nil => cases left
  | cons related =>
    cases left
    cases right
    exact related

end

variable [DecidableEq κ] (key : α → κ)

/-- Cutting loses nothing, and changes no order. -/
theorem flatMap_cut (l : List α) : (cut key l).flatMap toList = l := by
  induction l with
  | nil => rfl
  | cons a l ih =>
    simp only [cut]
    split
    case h_1 none_ =>
      rw [none_] at ih
      rw [← ih]
      rfl
    case h_2 s others cutting =>
      rw [cutting] at ih
      split
      · rw [← ih]
        rfl
      · rw [← ih]
        rfl

theorem key_of_mem_cut {l : List α} {s : Stretch α} (member : s ∈ cut key l) :
    ∀ a ∈ s.toList, key a = key s.first := by
  induction l generalizing s with
  | nil => cases member
  | cons b l ih =>
    simp only [cut] at member
    split at member
    case h_1 =>
      obtain rfl := List.mem_singleton.mp member
      simp
    case h_2 t others cutting =>
      rw [cutting] at ih
      split at member
      case isTrue same =>
        rcases List.mem_cons.mp member with rfl | member
        · intro a listed
          rcases List.mem_cons.mp listed with rfl | listed
          · rfl
          · exact (ih List.mem_cons_self a listed).trans same.symm
        · exact ih (List.mem_cons_of_mem _ member)
      case isFalse =>
        rcases List.mem_cons.mp member with rfl | member
        · simp
        · exact ih member

/-- No stretch can be made longer. -/
theorem isChain_cut (l : List α) :
    (cut key l).IsChain fun s t => key s.first ≠ key t.first := by
  induction l with
  | nil => exact .nil
  | cons a l ih =>
    simp only [cut]
    split
    case h_1 => exact .singleton _
    case h_2 s others cutting =>
      rw [cutting] at ih
      split
      case isTrue same =>
        cases others with
        | nil => exact .singleton _
        | cons t others =>
          obtain ⟨apart, ih⟩ := List.isChain_cons_cons.mp ih
          exact .cons_cons (same ▸ apart) ih
      case isFalse apart => exact .cons_cons apart ih

/-- The keys increase from stretch to stretch when they never decrease in the list. -/
theorem pairwise_cut {key : α → Int} {l : List α} (sorted : l.Pairwise fun a b => key a ≤ key b) :
    (cut key l).Pairwise fun s t => key s.first < key t.first := by
  have listed := sublist_firsts (cut key l)
  rw [flatMap_cut] at listed
  have firsts := sorted.sublist listed
  have apart := List.isChain_iff_getElem.mp (isChain_cut key l)
  rw [List.pairwise_map, List.pairwise_iff_getElem] at firsts
  have : Trans (fun s t : Stretch α => key s.first < key t.first)
      (fun s t : Stretch α => key s.first < key t.first)
      (fun s t : Stretch α => key s.first < key t.first) := ⟨Int.lt_trans⟩
  rw [← List.isChain_iff_pairwise, List.isChain_iff_getElem]
  intro i next
  have increasing := firsts i (i + 1) (Nat.lt_of_succ_lt next) next (Nat.lt_succ_self i)
  have different := apart i next
  omega

theorem cut_eq_nil_iff {l : List α} : cut key l = [] ↔ l = [] := by
  constructor
  · intro none_
    rw [← flatMap_cut key l, none_]
    rfl
  · rintro rfl
    rfl

/-- Lists that correspond are cut alike by keys that agree. -/
theorem cut_pairs {P : α → β → Prop} {other : β → κ} (agree : ∀ {a b}, P a b → key a = other b)
    {l : List α} {m : List β} (pairs : List.Forall₂ P l m) :
    List.Forall₂ (Pairs P) (cut key l) (cut other m) := by
  induction pairs with
  | nil => exact .nil
  | cons pair rest ih =>
    simp only [cut]
    generalize cut key _ = cutting, cut other _ = otherwise at ih ⊢
    cases ih with
    | nil => exact .cons ⟨pair, .nil⟩ .nil
    | cons next others =>
      simp only
      rw [agree pair, agree next.first]
      split
      · exact .cons ⟨pair, next.toList⟩ others
      · exact .cons ⟨pair, .nil⟩ (.cons next others)

theorem cut_cons {a : α} {l : List α} {s : Stretch α} {others : List (Stretch α)}
    (cutting : cut key l = s :: others) : cut key (a :: l) =
      if key a = key s.first then ⟨a, s.toList⟩ :: others else ⟨a, []⟩ :: s :: others := by
  simp only [cut, cutting]

/-- The first stretch reaches as far from one element as from another one with the same key. -/
theorem cut_cons_congr {a b : α} (same : key a = key b) (l : List α) :
    ∃ rest others, cut key (a :: l) = ⟨a, rest⟩ :: others ∧
      cut key (b :: l) = ⟨b, rest⟩ :: others := by
  simp only [cut]
  split
  case h_1 => exact ⟨[], [], rfl, rfl⟩
  case h_2 s others _ =>
    rw [same]
    split
    · exact ⟨s.toList, others, rfl, rfl⟩
    · exact ⟨[], s :: others, rfl, rfl⟩

theorem exists_cut (a : α) (l : List α) :
    ∃ rest others, cut key (a :: l) = ⟨a, rest⟩ :: others := by
  obtain ⟨rest, others, own, -⟩ := cut_cons_congr key (Eq.refl (key a)) l
  exact ⟨rest, others, own⟩

/-- Where elements with the same key have the same coarser key too, the longest stretches by the
coarser key consist of whole stretches by the finer one. -/
theorem cut_coarser {coarse : α → κ} (finer : ∀ {a b}, key a = key b → coarse a = coarse b)
    (l : List α) : cut coarse l = (cut (fun s => coarse s.first) (cut key l)).map join := by
  induction l with
  | nil => rfl
  | cons a l ih =>
    cases cutting : cut key l with
    | nil =>
      obtain rfl := (cut_eq_nil_iff key).mp cutting
      rfl
    | cons s others =>
      rw [cutting] at ih
      rw [cut_cons key cutting]
      split
      case isTrue same =>
        -- The element belongs to the first fine stretch, and so to the first coarse one.
        obtain ⟨rest, groups, left, right⟩ := cut_cons_congr (fun s => coarse s.first)
          (a := ⟨a, s.toList⟩) (b := s) (finer same) others
        rw [right] at ih
        rw [left, cut_cons coarse ih]
        refine (if_pos (finer same)).trans ?_
        simp [join, toList]
      case isFalse =>
        obtain ⟨rest, groups, right⟩ := exists_cut (fun s => coarse s.first) s others
        rw [right] at ih
        rw [cut_cons coarse ih, cut_cons (fun s : Stretch α => coarse s.first) right]
        by_cases alike : coarse a = coarse s.first
        · simp [join, toList, alike]
        · simp [join, alike]

end Stretch

end FuturesDesk
