import Mathlib.Data.List.Forall2
import Mathlib.Data.List.Nodup
import Mathlib.Data.List.Perm.Subperm

/-!
# Filling slots

As many slots as writes are filled one by one. No slot is left open exactly when
every place is written once.
-/

namespace NGraphBridge.Slots

variable {α : Type*} {slots : List (Option α)} {writes : List (Nat × α)}
  {values : List α}

/-- Each write puts its value at its place. -/
def fill (slots : List (Option α)) (writes : List (Nat × α)) :
    List (Option α) :=
  writes.foldl (fun slots write => slots.set write.1 (some write.2)) slots

theorem fill_cons (slots : List (Option α)) (write : Nat × α)
    (writes : List (Nat × α)) :
    fill slots (write :: writes) =
      fill (slots.set write.1 (some write.2)) writes := rfl

theorem length_fill (slots : List (Option α)) (writes : List (Nat × α)) :
    (fill slots writes).length = slots.length := by
  induction writes generalizing slots with
  | nil => rfl
  | cons write writes ih => rw [fill_cons, ih, List.length_set]

theorem fill_of_not_mem {place : Nat}
    (unwritten : place ∉ writes.map Prod.fst) :
    (fill slots writes)[place]? = slots[place]? := by
  induction writes generalizing slots with
  | nil => rfl
  | cons write writes ih =>
      rw [List.map_cons, List.mem_cons, not_or] at unwritten
      rw [fill_cons, ih unwritten.2, List.getElem?_set_ne (Ne.symm unwritten.1)]

theorem fill_of_mem (once : (writes.map Prod.fst).Nodup) {write : Nat × α}
    (member : write ∈ writes) (inside : write.1 < slots.length) :
    (fill slots writes)[write.1]? = some (some write.2) := by
  induction writes generalizing slots with
  | nil => exact absurd member List.not_mem_nil
  | cons head writes ih =>
      rw [List.map_cons, List.nodup_cons] at once
      rw [fill_cons]
      cases List.mem_cons.mp member with
      | inl same =>
          subst same
          rw [fill_of_not_mem once.1, List.getElem?_set_self inside]
      | inr later =>
          apply ih once.2 later
          rw [List.length_set]
          exact inside

section Related

variable {β : Type*} {R : α → β → Prop} {left : List α} {right : List β}

theorem exists_right (related : List.Forall₂ R left right) {item : α}
    (member : item ∈ left) :
    ∃ image ∈ right, R item image := by
  induction related with
  | nil => exact absurd member List.not_mem_nil
  | @cons head image _ _ here _ ih =>
      cases List.mem_cons.mp member with
      | inl same =>
          subst same
          exact ⟨image, List.mem_cons_self, here⟩
      | inr later =>
          obtain ⟨other, inRight, there⟩ := ih later
          exact ⟨other, List.mem_cons_of_mem _ inRight, there⟩

theorem exists_left (related : List.Forall₂ R left right) {image : β}
    (member : image ∈ right) :
    ∃ item ∈ left, R item image :=
  exists_right related.flip member

theorem join {γ : Type*} {Q : α → γ → Prop} {S : β → γ → Prop} {third : List γ}
    (related : List.Forall₂ R left right) (others : List.Forall₂ Q left third)
    (joined : ∀ item ∈ left, ∀ image other, R item image → Q item other →
      S image other) :
    List.Forall₂ S right third := by
  induction related generalizing third with
  | nil =>
      cases others
      exact .nil
  | cons here _ ih =>
      cases others with
      | cons there rest =>
          exact .cons (joined _ List.mem_cons_self _ _ here there)
            (ih rest fun item member =>
              joined item (List.mem_cons_of_mem _ member))

theorem exists_pairs {γ : Type*} {P : α → β → γ → Prop}
    (related : List.Forall₂ (fun item image => ∃ other, P item image other)
      left right) :
    ∃ pairs : List (β × γ),
      List.Forall₂ (fun item pair => P item pair.1 pair.2) left pairs ∧
      pairs.map Prod.fst = right := by
  induction related with
  | nil => exact ⟨[], .nil, rfl⟩
  | @cons item image _ _ here _ ih =>
      obtain ⟨other, here⟩ := here
      obtain ⟨pairs, rest, same⟩ := ih
      exact ⟨(image, other) :: pairs, .cons here rest,
        congrArg (image :: ·) same⟩

end Related

/-- All of the items have a result. -/
theorem mapM_iff {β : Type*} {f : β → Option α} {items : List β} :
    items.mapM f = some values ↔
    List.Forall₂ (fun item value => f item = some value) items values := by
  induction items generalizing values with
  | nil =>
      rw [List.mapM_nil, List.forall₂_nil_left_iff]
      constructor
      · exact fun done => (Option.some.inj done).symm
      · exact fun empty => congrArg some empty.symm
  | cons item items ih =>
      rw [List.mapM_cons]
      constructor
      · intro done
        obtain ⟨first, atItem, done⟩ := Option.bind_eq_some_iff.mp done
        obtain ⟨rest, atRest, done⟩ := Option.bind_eq_some_iff.mp done
        obtain rfl := Option.some.inj done
        exact .cons atItem (ih.mp atRest)
      · intro each
        cases each with
        | cons atItem atRest =>
            rw [atItem, ih.mpr atRest]
            rfl

theorem mapM_id_iff : slots.mapM id = some values ↔
    slots = values.map some := by
  rw [mapM_iff, ← List.forall₂_eq_eq_eq, List.forall₂_map_right_iff]
  rfl

/-- There are as many writes as slots, so that filling all of them takes each
place once. -/
theorem fill_complete (small : ∀ write ∈ writes, write.1 < writes.length) :
    (fill (List.replicate writes.length none) writes).mapM id = some values ↔
      (writes.map Prod.fst).Perm (List.range writes.length) ∧
        values.length = writes.length ∧
        ∀ write ∈ writes, values[write.1]? = some write.2 := by
  have length : (fill (List.replicate writes.length none) writes).length =
      writes.length := by
    rw [length_fill, List.length_replicate]
  have inside : ∀ write ∈ writes,
      write.1 < (List.replicate writes.length (none : Option α)).length := by
    intro write member
    rw [List.length_replicate]
    exact small write member
  rw [mapM_id_iff]
  constructor
  · intro filled
    have valuesLength : values.length = writes.length := by
      rw [← length, filled, List.length_map]
    have subset : List.range writes.length ⊆ writes.map Prod.fst := by
      intro place member
      by_contra unwritten
      have open_ := @fill_of_not_mem α (List.replicate writes.length none)
        writes place unwritten
      have below := List.mem_range.mp member
      rw [filled, List.getElem?_replicate, if_pos below,
        List.getElem?_map] at open_
      obtain ⟨value, _, isNone⟩ := Option.map_eq_some_iff.mp open_
      exact absurd isNone (by simp)
    have sameLength :
        (writes.map Prod.fst).length = (List.range writes.length).length := by
      rw [List.length_map, List.length_range]
    have perm : (List.range writes.length).Perm (writes.map Prod.fst) :=
      (List.nodup_range.subperm subset).perm_of_length_le
        (Nat.le_of_eq sameLength)
    refine ⟨perm.symm, valuesLength, fun write member => ?_⟩
    have written :=
      fill_of_mem (perm.nodup List.nodup_range) member (inside write member)
    rw [filled, List.getElem?_map] at written
    obtain ⟨value, atPlace, same⟩ := Option.map_eq_some_iff.mp written
    rw [atPlace, Option.some.inj same]
  · intro ⟨perm, valuesLength, atPlaces⟩
    apply List.ext_getElem?
    intro place
    by_cases below : place < writes.length
    · have written := perm.mem_iff.mpr (List.mem_range.mpr below)
      obtain ⟨write, member, rfl⟩ := List.mem_map.mp written
      rw [fill_of_mem (perm.symm.nodup List.nodup_range) member
        (inside write member), List.getElem?_map, atPlaces write member]
      rfl
    · have outside := Nat.le_of_not_lt below
      have valuesOutside : (values.map some).length ≤ place := by
        rw [List.length_map, valuesLength]
        exact outside
      rw [List.getElem?_eq_none (length.symm ▸ outside),
        List.getElem?_eq_none valuesOutside]

theorem exists_values (filled : ∀ slot ∈ slots, slot.isSome = true) :
    ∃ values : List α, slots = values.map some := by
  induction slots with
  | nil => exact ⟨[], rfl⟩
  | cons slot slots ih =>
      obtain ⟨value, rfl⟩ :=
        Option.isSome_iff_exists.mp (filled slot List.mem_cons_self)
      obtain ⟨values, rfl⟩ :=
        ih fun other member => filled other (List.mem_cons_of_mem _ member)
      exact ⟨value :: values, rfl⟩

theorem lt_of_perm
    (perm : (writes.map Prod.fst).Perm (List.range writes.length)) :
    ∀ write ∈ writes, write.1 < writes.length := by
  intro write member
  exact List.mem_range.mp (perm.mem_iff.mp (List.mem_map_of_mem member))

/-- Writes that take each place once are the entries of a list. -/
theorem exists_of_perm
    (perm : (writes.map Prod.fst).Perm (List.range writes.length)) :
    ∃ values : List α, values.length = writes.length ∧
      ∀ write ∈ writes, values[write.1]? = some write.2 := by
  have small := lt_of_perm perm
  have filled : ∀ slot ∈ fill (List.replicate writes.length none) writes,
      slot.isSome = true := by
    intro slot member
    obtain ⟨place, atPlace⟩ := List.mem_iff_getElem?.mp member
    have inside := (List.getElem?_eq_some_iff.mp atPlace).1
    rw [length_fill, List.length_replicate] at inside
    have isPlace := perm.mem_iff.mpr (List.mem_range.mpr inside)
    obtain ⟨write, isWrite, rfl⟩ := List.mem_map.mp isPlace
    have insideSlots :
        write.1 < (List.replicate writes.length (none : Option α)).length := by
      rw [List.length_replicate]
      exact inside
    have once := perm.symm.nodup List.nodup_range
    rw [fill_of_mem once isWrite insideSlots] at atPlace
    rw [← Option.some.inj atPlace]
    rfl
  obtain ⟨values, same⟩ := exists_values filled
  exact ⟨values, ((fill_complete small).mp (mapM_id_iff.mpr same)).2⟩

/-- Items that bear the names of the places, each name once, are at the places
of a list. -/
theorem exists_indices {κ : Type*} {R : α → Nat → Prop} {items : List α}
    {count : Nat} {key : α → κ} {nameAt : Nat → κ}
    (distinct : (items.map key).Nodup)
    (injective : ∀ i j, nameAt i = nameAt j → i = j)
    (named : ∀ item ∈ items, ∃ place < count, key item = nameAt place ∧
      R item place)
    (all : ∀ place < count, ∃ item ∈ items, key item = nameAt place) :
    ∃ places, List.Forall₂ R items places ∧ places.Perm (List.range count) := by
  have exists_places : ∀ items : List α,
      (∀ item ∈ items, ∃ place < count, key item = nameAt place ∧
        R item place) →
      ∃ places, List.Forall₂
        (fun item place => place < count ∧ key item = nameAt place ∧
        R item place) items places := by
    intro items
    induction items with
    | nil => exact fun _ => ⟨[], .nil⟩
    | cons item items ih =>
        intro named
        obtain ⟨place, here⟩ := named item List.mem_cons_self
        obtain ⟨places, rest⟩ :=
          ih fun other member => named other (List.mem_cons_of_mem _ member)
        exact ⟨place :: places, .cons here rest⟩
  obtain ⟨places, each⟩ := exists_places items named
  have names : places.map nameAt = items.map key := by
    rw [← List.forall₂_eq_eq_eq, List.forall₂_map_left_iff,
      List.forall₂_map_right_iff]
    exact each.flip.imp fun _ _ here => here.2.1.symm
  have mapped : (places.map nameAt).Nodup := names.symm ▸ distinct
  have once : places.Nodup := List.Nodup.of_map nameAt mapped
  refine ⟨places, each.imp fun _ _ here => here.2.2, ?_⟩
  apply (List.perm_ext_iff_of_nodup once List.nodup_range).mpr
  intro place
  rw [List.mem_range]
  constructor
  · intro member
    obtain ⟨_, _, here⟩ := exists_left each member
    exact here.1
  · intro inside
    obtain ⟨item, member, isNamed⟩ := all place inside
    obtain ⟨other, isPlace, _, isOther, _⟩ := exists_right each member
    rw [injective place other (isNamed.symm.trans isOther)]
    exact isPlace

end NGraphBridge.Slots
