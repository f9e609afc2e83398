import Mathlib.Data.List.Nodup
import Mathlib.Data.List.Induction
import Mathlib.Data.List.Basic

/-!
# Insertion-ordered maps

A finite map as the list of its entries, oldest key first. Setting a key that is present
replaces its value in place, setting a new key appends it. The entries carry the proof that no
key occurs twice, so an entry of the list is a binding of the map and the list can be rebuilt
from its entries.
-/

namespace SoftwareUpdate.Misc

/-- A finite map that remembers the order in which its keys were inserted. -/
@[ext] structure OrderedMap (α β : Type*) where
  entries : List (α × β)
  nodup : (entries.map Prod.fst).Nodup

namespace OrderedMap

variable {α β : Type*}

def empty : OrderedMap α β := ⟨[], List.nodup_nil⟩

variable [DecidableEq α] {m : OrderedMap α β} {k k' : α} {v v' : β} {es : List (α × β)}

/-- The entries with `v` under the key `k`: in place when there is one, else at the end. -/
def putEntry (k : α) (v : β) : List (α × β) → List (α × β)
  | [] => [(k, v)]
  | e :: es => if e.1 = k then (k, v) :: es else e :: putEntry k v es

theorem keys_putEntry : (putEntry k v es).map Prod.fst =
    if k ∈ es.map Prod.fst then es.map Prod.fst else es.map Prod.fst ++ [k] := by
  induction es with
  | nil => simp [putEntry]
  | cons e es ih =>
    unfold putEntry
    by_cases he : e.1 = k
    · simp [he]
    · simp only [he, if_false, List.map_cons, ih, List.mem_cons, Ne.symm he, false_or]
      split <;> simp

theorem putEntry_of_notMem (h : k ∉ es.map Prod.fst) : putEntry k v es = es ++ [(k, v)] := by
  induction es with
  | nil => rfl
  | cons e es ih =>
    simp only [List.map_cons, List.mem_cons, not_or] at h
    simp [putEntry, Ne.symm h.1, ih h.2]

def get? (m : OrderedMap α β) (k : α) : Option β := m.entries.lookup k

def set (m : OrderedMap α β) (k : α) (v : β) : OrderedMap α β where
  entries := putEntry k v m.entries
  nodup := by
    rw [keys_putEntry]
    split
    · exact m.nodup
    · next hk => exact m.nodup.append (List.nodup_singleton k) (by simpa using hk)

def erase (m : OrderedMap α β) (k : α) : OrderedMap α β where
  entries := m.entries.filter fun e => e.1 ≠ k
  nodup := m.nodup.sublist (List.filter_sublist.map _)

omit [DecidableEq α] in
/-- The entries whose value passes the test. -/
def filterValues (m : OrderedMap α β) (p : β → Bool) : OrderedMap α β where
  entries := m.entries.filter fun e => p e.2
  nodup := m.nodup.sublist (List.filter_sublist.map _)

/-! ## Reading -/

theorem lookup_cons_of_eq {e : α × β} (h : e.1 = k) : (e :: es).lookup k = some e.2 := by
  obtain ⟨key, w⟩ := e
  obtain rfl : key = k := h
  exact List.lookup_cons_self

theorem lookup_cons_of_ne {e : α × β} (h : e.1 ≠ k) : (e :: es).lookup k = es.lookup k := by
  obtain ⟨key, w⟩ := e
  have hkey : (k == key) = false := by simpa using Ne.symm h
  rw [List.lookup_cons, hkey]

theorem lookup_putEntry_self : (putEntry k v es).lookup k = some v := by
  induction es with
  | nil => exact lookup_cons_of_eq rfl
  | cons e es ih =>
    unfold putEntry
    split
    · exact lookup_cons_of_eq rfl
    · next he => rw [lookup_cons_of_ne he, ih]

theorem lookup_putEntry_of_ne (h : k' ≠ k) : (putEntry k v es).lookup k' = es.lookup k' := by
  induction es with
  | nil => exact lookup_cons_of_ne h.symm
  | cons e es ih =>
    unfold putEntry
    split
    · next he => rw [lookup_cons_of_ne h.symm, lookup_cons_of_ne (he.symm ▸ h.symm)]
    · by_cases he : e.1 = k'
      · rw [lookup_cons_of_eq he, lookup_cons_of_eq he]
      · rw [lookup_cons_of_ne he, lookup_cons_of_ne he, ih]

@[simp] theorem get?_set_self : (m.set k v).get? k = some v := lookup_putEntry_self

theorem get?_set_of_ne (h : k' ≠ k) : (m.set k v).get? k' = m.get? k' :=
  lookup_putEntry_of_ne h

/-- The entries that are filtered out by their keys hide no other one. -/
theorem lookup_filter_key {b : α → Bool} (h : b k = true) :
    (es.filter fun e => b e.1).lookup k = es.lookup k := by
  induction es with
  | nil => rfl
  | cons e es ih =>
    by_cases he : e.1 = k
    · rw [List.filter_cons_of_pos (by rwa [he]), lookup_cons_of_eq he, lookup_cons_of_eq he]
    · rw [lookup_cons_of_ne he, ← ih]
      by_cases hb : b e.1 = true
      · rw [List.filter_cons, if_pos hb, lookup_cons_of_ne he]
      · rw [List.filter_cons, if_neg hb]

@[simp] theorem get?_erase_self : (m.erase k).get? k = none := by
  refine List.lookup_eq_none_iff.mpr fun e he => ?_
  have hkey : e.1 ≠ k := by simpa using (List.mem_filter.mp he).2
  simpa using hkey.symm

theorem get?_erase_of_ne (h : k' ≠ k) : (m.erase k).get? k' = m.get? k' :=
  lookup_filter_key (b := fun key => key ≠ k) (by simpa using h)

/-- When no key occurs twice, a binding that is filtered out leaves no other one. -/
theorem lookup_filter {p : β → Bool} (h : (es.map Prod.fst).Nodup) :
    (es.filter fun e => p e.2).lookup k = (es.lookup k).filter p := by
  induction es with
  | nil => rfl
  | cons e es ih =>
    rw [List.map_cons, List.nodup_cons] at h
    by_cases he : e.1 = k
    · rw [lookup_cons_of_eq he, Option.filter_some]
      by_cases hp : p e.2 = true
      · rw [List.filter_cons, if_pos hp, lookup_cons_of_eq he, if_pos hp]
      · rw [List.filter_cons, if_neg hp, if_neg hp]
        refine List.lookup_eq_none_iff.mpr fun e' he' => ?_
        have hmem := List.mem_map_of_mem (f := Prod.fst) (List.mem_of_mem_filter he')
        rw [bne_iff_ne]
        rintro rfl
        exact h.1 (he ▸ hmem)
    · rw [lookup_cons_of_ne he, ← ih h.2]
      by_cases hp : p e.2 = true
      · rw [List.filter_cons, if_pos hp, lookup_cons_of_ne he]
      · rw [List.filter_cons, if_neg hp]

theorem get?_filterValues {p : β → Bool} : (m.filterValues p).get? k = (m.get? k).filter p :=
  lookup_filter m.nodup

/-- What was set under a key that is erased makes no difference. -/
theorem erase_set : (m.set k v).erase k = m.erase k := by
  ext1
  show (putEntry k v m.entries).filter (fun e => e.1 ≠ k) = m.entries.filter fun e => e.1 ≠ k
  induction m.entries with
  | nil => simp [putEntry]
  | cons e es ih =>
    unfold putEntry
    by_cases he : e.1 = k
    · simp [he]
    · simp only [he, if_false]
      rw [List.filter_cons, List.filter_cons, ih]

/-! ## What holds of every entry -/

theorem mem_of_mem_putEntry {e : α × β} (h : e ∈ putEntry k v es) : e = (k, v) ∨ e ∈ es := by
  induction es with
  | nil => simpa [putEntry] using h
  | cons e' es ih =>
    unfold putEntry at h
    split at h
    · rcases List.mem_cons.mp h with he | hmem
      · exact .inl he
      · exact .inr (List.mem_cons_of_mem _ hmem)
    · rcases List.mem_cons.mp h with he | hmem
      · exact .inr (he ▸ List.mem_cons_self)
      · exact (ih hmem).imp_right (List.mem_cons_of_mem _)

theorem forall_entries_set {P : α × β → Prop} (h : ∀ e ∈ m.entries, P e) (hk : P (k, v)) :
    ∀ e ∈ (m.set k v).entries, P e := by
  intro e he
  rcases mem_of_mem_putEntry he with rfl | hmem
  · exact hk
  · exact h e hmem

theorem forall_entries_erase {P : α × β → Prop} (h : ∀ e ∈ m.entries, P e) :
    ∀ e ∈ (m.erase k).entries, P e :=
  fun e he => h e (List.mem_of_mem_filter he)

/-! ## Building a map from a list of entries -/

/-- The entries set one after another: of two entries with one key the later one counts. -/
def setAll (m : OrderedMap α β) (es : List (α × β)) : OrderedMap α β :=
  es.foldl (fun m e => m.set e.1 e.2) m

theorem setAll_append {fs : List (α × β)} : m.setAll (es ++ fs) = (m.setAll es).setAll fs :=
  List.foldl_append ..

/-- Entries with new and distinct keys are appended in their order. -/
theorem entries_setAll (h : ((m.entries ++ es).map Prod.fst).Nodup) :
    (m.setAll es).entries = m.entries ++ es := by
  induction es generalizing m with
  | nil => simp [setAll]
  | cons e es ih =>
    have hnew : e.1 ∉ m.entries.map Prod.fst := by
      intro hmem
      rw [List.map_append, List.nodup_append] at h
      exact h.2.2 _ hmem _ (by simp) rfl
    have hset : (m.set e.1 e.2).entries = m.entries ++ [e] := putEntry_of_notMem hnew
    show ((m.set e.1 e.2).setAll es).entries = m.entries ++ e :: es
    rw [ih (by rw [hset]; simpa using h), hset]
    simp

theorem forall_entries_setAll {P : α × β → Prop} (h : ∀ e ∈ m.entries, P e)
    (hes : ∀ e ∈ es, P e) : ∀ e ∈ (m.setAll es).entries, P e := by
  induction es generalizing m with
  | nil => exact h
  | cons e es ih =>
    exact ih (forall_entries_set h (hes e List.mem_cons_self))
      fun e he => hes e (List.mem_cons_of_mem _ he)

/-- A map is rebuilt from its entries. -/
theorem setAll_empty_entries : (empty : OrderedMap α β).setAll m.entries = m := by
  ext1
  rw [entries_setAll (by simpa [empty] using m.nodup)]
  rfl

theorem get?_eq_some_iff : m.get? k = some v ↔ (k, v) ∈ m.entries := by
  constructor
  · intro h
    obtain ⟨es, es', heq, -⟩ := List.lookup_eq_some_iff.mp h
    rw [heq]
    simp
  · intro h
    obtain ⟨es, es', heq⟩ := List.append_of_mem h
    refine List.lookup_eq_some_iff.mpr ⟨es, es', heq, fun e he => ?_⟩
    have hnodup := m.nodup
    rw [heq, List.map_append, List.nodup_append] at hnodup
    rw [bne_iff_ne]
    exact (hnodup.2.2 _ (List.mem_map_of_mem he) _ (by simp)).symm

/-! ## The entries under some of the keys -/

variable {b : α → Bool}

/-- The entries under other keys stay when one is set. -/
theorem filter_putEntry (h : b k = false) :
    ((putEntry k v es).filter fun e => b e.1) = es.filter fun e => b e.1 := by
  induction es with
  | nil => simp [putEntry, h]
  | cons e es ih =>
    unfold putEntry
    by_cases he : e.1 = k
    · simp [he, h]
    · simp only [he, if_false]
      rw [List.filter_cons, List.filter_cons, ih]

theorem filter_erase (h : b k = false) :
    ((m.erase k).entries.filter fun e => b e.1) = m.entries.filter fun e => b e.1 := by
  show ((m.entries.filter fun e => e.1 ≠ k).filter fun e => b e.1) = _
  rw [List.filter_filter]
  refine List.filter_congr fun e _ => ?_
  by_cases he : e.1 = k
  · simp [he, h]
  · simp [he]

/-- Entries set one after another stay in their order under the keys that occur once. -/
theorem filter_setAll (h : (((m.entries ++ es).filter fun e => b e.1).map Prod.fst).Nodup) :
    ((m.setAll es).entries.filter fun e => b e.1) =
      (m.entries ++ es).filter fun e => b e.1 := by
  induction es generalizing m with
  | nil => simp [setAll]
  | cons e es ih =>
    show (((m.set e.1 e.2).setAll es).entries.filter fun e => b e.1) = _
    have hset : ((m.set e.1 e.2).entries.filter fun e => b e.1) =
        (m.entries ++ [e]).filter fun e => b e.1 := by
      by_cases he : b e.1 = true
      · have hnew : e.1 ∉ m.entries.map Prod.fst := by
          intro hmem
          obtain ⟨e', he', hk⟩ := List.mem_map.mp hmem
          rw [List.filter_append, List.map_append, List.nodup_append] at h
          have hold : e.1 ∈ (m.entries.filter fun e => b e.1).map Prod.fst :=
            List.mem_map.mpr ⟨e', List.mem_filter.mpr ⟨he', by rw [hk]; exact he⟩, hk⟩
          exact h.2.2 _ hold _ (by simp [he]) rfl
        exact congrArg _ (putEntry_of_notMem hnew)
      · have hother : b e.1 = false := by simpa using he
        show ((putEntry e.1 e.2 m.entries).filter fun e => b e.1) = _
        rw [filter_putEntry hother]
        simp [List.filter_append, hother]
    have happend : ((m.set e.1 e.2).entries ++ es).filter (fun e => b e.1) =
        (m.entries ++ e :: es).filter fun e => b e.1 := by
      rw [List.filter_append, hset, ← List.filter_append]
      simp
    rw [ih (by rw [happend]; exact h), happend]

/-! ## The order of the keys -/

/-- The key `k` occurs, and no entry before it has the property `p`. -/
def Leads (p : α × β → Prop) (k : α) : List (α × β) → Prop
  | [] => False
  | e :: es => e.1 = k ∨ ¬ p e ∧ Leads p k es

variable {p q : α × β → Prop}

omit [DecidableEq α] in
theorem leads_congr (h : ∀ e ∈ es, p e ↔ q e) : Leads p k es ↔ Leads q k es := by
  induction es with
  | nil => exact Iff.rfl
  | cons e es ih =>
    have hrest := ih fun e he => h e (List.mem_cons_of_mem _ he)
    simp only [Leads, h e List.mem_cons_self, hrest]

omit [DecidableEq α] in
theorem Leads.mem_keys (h : Leads p k es) : k ∈ es.map Prod.fst := by
  induction es with
  | nil => exact h.elim
  | cons e es ih =>
    rcases h with rfl | ⟨-, hes⟩
    · exact List.mem_cons_self
    · exact List.mem_cons_of_mem _ (ih hes)

omit [DecidableEq α] in
/-- A key that occurs leads when no entry has the property. -/
theorem leads_of_mem_keys (hk : k ∈ es.map Prod.fst) (h : ∀ e ∈ es, ¬ p e) : Leads p k es := by
  induction es with
  | nil => cases hk
  | cons e es ih =>
    rcases List.mem_cons.mp hk with rfl | hk
    · exact .inl rfl
    · exact .inr ⟨h e List.mem_cons_self, ih hk fun e he => h e (List.mem_cons_of_mem _ he)⟩

/-- A key that is set leads as before, or it is the key and no entry has the property. Whether the
new entry has it must not depend on the value. -/
theorem leads_putEntry_iff (hp : ∀ w, p (k', w) ↔ p (k', v)) :
    Leads p k (putEntry k' v es) ↔ Leads p k es ∨ k' = k ∧ ∀ e ∈ es, ¬ p e := by
  induction es with
  | nil => simp [putEntry, Leads]
  | cons e es ih =>
    obtain ⟨k₀, v₀⟩ := e
    unfold putEntry
    by_cases hk : k₀ = k'
    · subst hk
      simp only [if_true, Leads, hp v₀, List.forall_mem_cons]
      constructor
      · exact .inl
      · rintro (h | ⟨rfl, -⟩)
        · exact h
        · exact .inl rfl
    · simp only [hk, if_false, Leads, ih, List.forall_mem_cons]
      constructor
      · rintro (h | ⟨hv, h | ⟨hkey, h⟩⟩)
        · exact .inl (.inl h)
        · exact .inl (.inr ⟨hv, h⟩)
        · exact .inr ⟨hkey, hv, h⟩
      · rintro ((h | ⟨hv, h⟩) | ⟨hkey, hv, h⟩)
        · exact .inl h
        · exact .inr ⟨hv, .inl h⟩
        · exact .inr ⟨hv, .inr ⟨hkey, h⟩⟩

/-- The order does not depend on another key whose entries do not have the property. -/
theorem leads_putEntry_of_ne (hk : k' ≠ k) (hp : ∀ w, ¬ p (k', w)) :
    Leads p k (putEntry k' v es) ↔ Leads p k es := by
  rw [leads_putEntry_iff fun w => iff_of_false (hp w) (hp v)]
  simp [hk]

theorem leads_filter_ne (hk : k' ≠ k) (hp : ∀ w, ¬ p (k', w)) :
    Leads p k (es.filter fun e => e.1 ≠ k') ↔ Leads p k es := by
  induction es with
  | nil => exact Iff.rfl
  | cons e es ih =>
    obtain ⟨k₀, v₀⟩ := e
    by_cases hk₀ : k₀ = k'
    · subst hk₀
      rw [List.filter_cons_of_neg (by simp), ih]
      simp [Leads, hk, hp]
    · rw [List.filter_cons_of_pos (by simpa using hk₀)]
      simp only [Leads, ih]

theorem mem_keys_set : k' ∈ (m.set k v).entries.map Prod.fst ↔
    k' = k ∨ k' ∈ m.entries.map Prod.fst := by
  show k' ∈ (putEntry k v m.entries).map Prod.fst ↔ _
  rw [keys_putEntry]
  split
  · next hk =>
    constructor
    · exact .inr
    · rintro (rfl | h)
      · exact hk
      · exact h
  · simp [or_comm]

theorem mem_keys_setAll : k ∈ (m.setAll es).entries.map Prod.fst ↔
    k ∈ m.entries.map Prod.fst ∨ k ∈ es.map Prod.fst := by
  induction es generalizing m with
  | nil => simp [setAll]
  | cons e es ih =>
    show k ∈ ((m.set e.1 e.2).setAll es).entries.map Prod.fst ↔ _
    rw [ih, mem_keys_set, List.map_cons, List.mem_cons, or_assoc, or_left_comm]

/-- Among entries set one after another, a key leads when it is set before any entry with the
property, which here depends on the key only. -/
theorem leads_setAll_iff {p : α → Prop} : Leads (fun e => p e.1) k ((empty.setAll es).entries) ↔
    ∃ before v behind, es = before ++ (k, v) :: behind ∧ ∀ e ∈ before, ¬ p e.1 := by
  induction es using List.reverseRecOn with
  | nil => simp [setAll, empty, Leads]
  | append_singleton es e ih =>
    have hkeys : (∀ e ∈ (empty.setAll es).entries, ¬ p e.1) ↔ ∀ e ∈ es, ¬ p e.1 := by
      have hmem (key : α) : key ∈ ((empty : OrderedMap α β).setAll es).entries.map Prod.fst ↔
          key ∈ es.map Prod.fst := mem_keys_setAll.trans (by simp [empty])
      rw [← List.forall_mem_map (f := Prod.fst) (P := fun key => ¬ p key),
        ← List.forall_mem_map (f := Prod.fst) (P := fun key => ¬ p key)]
      exact forall_congr' fun key => imp_congr_left (hmem key)
    rw [setAll_append]
    show Leads _ k (putEntry e.1 e.2 (empty.setAll es).entries) ↔ _
    rw [leads_putEntry_iff fun _ => Iff.rfl, ih, hkeys]
    constructor
    · rintro (⟨before, v, behind, rfl, h⟩ | ⟨rfl, h⟩)
      · exact ⟨before, v, behind ++ [e], by simp, h⟩
      · exact ⟨es, e.2, [], rfl, h⟩
    · rintro ⟨before, v, behind, heq, h⟩
      rcases List.eq_nil_or_concat behind with rfl | ⟨behind, e', rfl⟩
      · obtain ⟨rfl, he⟩ := List.append_inj' heq rfl
        cases he
        exact .inr ⟨rfl, h⟩
      · have hsplit : es ++ [e] = (before ++ (k, v) :: behind) ++ [e'] := by simpa using heq
        exact .inl ⟨before, v, behind, (List.append_inj' hsplit rfl).1, h⟩

end OrderedMap

end SoftwareUpdate.Misc
