import Mathlib.Data.List.Nodup
import SoftwareUpdate.Misc.References

/-!
# Two readings of the definitions

Every definition is taken for something by a reader, and may or may not be meant as a definition.
The reader and the meaning come to the same value by the same way exactly when, before the
definition that decides, both only pass over dead references, and the deciding one is meant as it
is taken.
-/

namespace SoftwareUpdate.Misc

/-- A definition as it is taken, and as it is meant if it is meant as one. -/
structure Reading (ν ι β : Type*) where
  tag : ι
  taken : Target ν β
  meant : Option (Target ν β)

namespace Reading

variable {ν ι β : Type*}

/-- The definitions as they are taken. -/
def takenTable (e : ν → List (Reading ν ι β)) : Table ν ι β :=
  fun n => (e n).map fun d => (d.tag, d.taken)

/-- The definitions that are meant. -/
def meantTable (e : ν → List (Reading ν ι β)) : Table ν ι β :=
  fun n => (e n).filterMap fun d => d.meant.map fun c => (d.tag, c)

/-- The definition is a reference to a name that is dead for the reader, and, if it is meant, a
reference to a name that is dead as the definitions are meant. -/
def Passed (e : ν → List (Reading ν ι β)) (d : Reading ν ι β) : Prop :=
  Table.DeadRef (takenTable e) (d.tag, d.taken) ∧
    ∀ c, d.meant = some c → Table.DeadRef (meantTable e) (d.tag, c)

/-- The reader goes the way that is meant. -/
inductive Agrees (e : ν → List (Reading ν ι β)) : ν → Prop
  | dead {n : ν} (htaken : Table.Dead (takenTable e) n) (hmeant : Table.Dead (meantTable e) n) :
      Agrees e n
  | value {n : ν} {pre post : List (Reading ν ι β)} {d : Reading ν ι β} {v : β}
      (hsplit : e n = pre ++ d :: post) (hpre : ∀ d' ∈ pre, Passed e d')
      (htaken : d.taken = .value v) (hmeant : d.meant = some (.value v)) : Agrees e n
  | ref {n m : ν} {pre post : List (Reading ν ι β)} {d : Reading ν ι β}
      (hsplit : e n = pre ++ d :: post) (hpre : ∀ d' ∈ pre, Passed e d')
      (htaken : d.taken = .ref m) (hmeant : d.meant = some (.ref m))
      (hlive : ¬ Table.Dead (meantTable e) m) (h : Agrees e m) : Agrees e n

/-- What is meant is taken the same way, apart from references that are taken for another name; and
no definition of that other name defines the name that is meant. -/
structure Faithful (e : ν → List (Reading ν ι β)) : Prop where
  nodup : ∀ n, ((e n).map tag).Nodup
  value : ∀ n, ∀ d ∈ e n, ∀ v, d.meant = some (.value v) → d.taken = .value v
  apart : ∀ n, ∀ d ∈ e n, ∀ m m', d.meant = some (.ref m) → d.taken = .ref m' → m ≠ m' →
    ∀ i c c', (i, c) ∈ meantTable e m → (i, c') ∉ takenTable e m'

variable {e : ν → List (Reading ν ι β)} {n : ν} {r : Option (List ι × β)}
  {pre post : List (Reading ν ι β)} {d : Reading ν ι β} {p : List ι} {v : β}

theorem takenTable_split (h : e n = pre ++ d :: post) :
    takenTable e n = (pre.map fun d => (d.tag, d.taken)) ++ (d.tag, d.taken) ::
      post.map fun d => (d.tag, d.taken) := by
  simp [takenTable, h]

theorem meantTable_split (h : e n = pre ++ d :: post) {c : Target ν β} (hc : d.meant = some c) :
    meantTable e n = (pre.filterMap fun d => d.meant.map fun c => (d.tag, c)) ++ (d.tag, c) ::
      post.filterMap fun d => d.meant.map fun c => (d.tag, c) := by
  simp [meantTable, h, hc]

theorem deadRef_of_passed (h : ∀ d ∈ pre, Passed e d) :
    (∀ c ∈ pre.map fun d => (d.tag, d.taken), Table.DeadRef (takenTable e) c) ∧
      ∀ c ∈ pre.filterMap fun d => d.meant.map fun c => (d.tag, c),
        Table.DeadRef (meantTable e) c := by
  constructor
  · intro c hc
    obtain ⟨d, hd, rfl⟩ := List.mem_map.mp hc
    exact (h d hd).1
  · intro c hc
    obtain ⟨d, hd, hmap⟩ := List.mem_filterMap.mp hc
    obtain ⟨target, htarget, rfl⟩ := Option.map_eq_some_iff.mp hmap
    exact (h d hd).2 target htarget

theorem Agrees.exists_reads (h : Agrees e n) :
    ∃ r, Table.Reads (takenTable e) n r ∧ Table.Reads (meantTable e) n r := by
  induction h with
  | dead htaken hmeant => exact ⟨none, .dead htaken, .dead hmeant⟩
  | value hsplit hpre htaken hmeant =>
    obtain ⟨hpast, hpast'⟩ := deadRef_of_passed hpre
    have htable := takenTable_split hsplit
    rw [htaken] at htable
    exact ⟨_, .value htable hpast, .value (meantTable_split hsplit hmeant) hpast'⟩
  | ref hsplit hpre htaken hmeant hlive _ ih =>
    obtain ⟨hpast, hpast'⟩ := deadRef_of_passed hpre
    obtain ⟨r, hreads, hreads'⟩ := ih
    have htable := takenTable_split hsplit
    rw [htaken] at htable
    cases r with
    | none => exact absurd (Table.reads_none_iff.mp hreads') hlive
    | some q =>
      exact ⟨_, .ref htable hpast hreads, .ref (meantTable_split hsplit hmeant) hpast' hreads'⟩

/-! ## The same way -/

theorem exists_split_taken {cs cs' : List (ι × Target ν β)} {i : ι} {c : Target ν β}
    (h : takenTable e n = cs ++ (i, c) :: cs') :
    ∃ pre d post, e n = pre ++ d :: post ∧ d.tag = i ∧ d.taken = c ∧
      cs = pre.map fun d => (d.tag, d.taken) := by
  obtain ⟨pre, rest, hsplit, rfl, hrest⟩ := List.map_eq_append_iff.mp h
  obtain ⟨d, post, rfl, hd, -⟩ := List.map_eq_cons_iff.mp hrest
  cases hd
  exact ⟨pre, d, post, hsplit, rfl, rfl, rfl⟩

theorem exists_split_meant {cs cs' : List (ι × Target ν β)} {i : ι} {c : Target ν β}
    (h : meantTable e n = cs ++ (i, c) :: cs') :
    ∃ pre d post, e n = pre ++ d :: post ∧ d.tag = i ∧ d.meant = some c ∧
      cs = pre.filterMap fun d => d.meant.map fun c => (d.tag, c) := by
  obtain ⟨pre, rest, hsplit, rfl, hrest⟩ := List.filterMap_eq_append_iff.mp h
  obtain ⟨pre', d, post, rfl, hnone, hd, -⟩ := List.filterMap_eq_cons_iff.mp hrest
  obtain ⟨c', hc', heq⟩ := Option.map_eq_some_iff.mp hd
  cases heq
  refine ⟨pre ++ pre', d, post, by simpa using hsplit, rfl, hc', ?_⟩
  rw [List.filterMap_append, List.filterMap_eq_nil_iff.mpr hnone, List.append_nil]

/-- Definitions with one tag are one definition. -/
theorem split_unique {pre' post' : List (Reading ν ι β)} {d' : Reading ν ι β}
    (hnodup : ((pre ++ d :: post).map tag).Nodup) (h : pre ++ d :: post = pre' ++ d' :: post')
    (htag : d.tag = d'.tag) : pre = pre' ∧ d = d' := by
  induction pre generalizing pre' with
  | nil =>
    cases pre' with
    | nil => exact ⟨rfl, (List.cons.inj h).1⟩
    | cons x pre' =>
      obtain ⟨rfl, rfl⟩ := List.cons.inj h
      simp [htag] at hnodup
  | cons x pre ih =>
    rw [List.cons_append, List.map_cons, List.nodup_cons] at hnodup
    cases pre' with
    | nil =>
      obtain ⟨rfl, -⟩ := List.cons.inj h
      simp [← htag] at hnodup
    | cons y pre' =>
      obtain ⟨rfl, hrest⟩ := List.cons.inj h
      obtain ⟨rfl, rfl⟩ := ih hnodup.2 hrest
      exact ⟨rfl, rfl⟩

/-- Definitions before the one that decides for both are passed over by both. -/
theorem passed_of_deadRef
    (h : ∀ c ∈ pre.map fun d => (d.tag, d.taken), Table.DeadRef (takenTable e) c)
    (h' : ∀ c ∈ pre.filterMap fun d => d.meant.map fun c => (d.tag, c),
      Table.DeadRef (meantTable e) c) : ∀ d ∈ pre, Passed e d := by
  intro d hd
  refine ⟨h _ (List.mem_map.mpr ⟨d, hd, rfl⟩), fun c hc => ?_⟩
  exact h' _ (List.mem_filterMap.mpr ⟨d, hd, by rw [hc]; rfl⟩)

/-- What decides for the reader is what decides as the definitions are meant, when the ways to the
value are one. -/
theorem exists_deciding (he : Faithful e) (h : Table.Reads (takenTable e) n (some (p, v)))
    (h' : Table.Reads (meantTable e) n (some (p, v))) :
    ∃ pre d post q, e n = pre ++ d :: post ∧ (∀ d' ∈ pre, Passed e d') ∧ p = d.tag :: q ∧
      (d.taken = .value v ∧ d.meant = some (.value v) ∨
        ∃ m, d.taken = .ref m ∧ d.meant = some (.ref m) ∧
          Table.Reads (takenTable e) m (some (q, v)) ∧
          Table.Reads (meantTable e) m (some (q, v))) := by
  obtain ⟨cs, i, c, cs₂, q, htable, hpast, hway, hdecides⟩ := h.exists_deciding
  obtain ⟨cs', i', c', cs₂', q', htable', hpast', rfl, hdecides'⟩ := h'.exists_deciding
  obtain ⟨pre, d, post, hsplit, rfl, rfl, rfl⟩ := exists_split_taken htable
  obtain ⟨pre', d', post', hsplit', rfl, hmeant, rfl⟩ := exists_split_meant htable'
  obtain ⟨htag, rfl⟩ := List.cons.inj hway
  have hnodup := he.nodup n
  rw [hsplit] at hnodup
  obtain ⟨rfl, rfl⟩ := split_unique hnodup (hsplit.symm.trans hsplit') htag.symm
  have hd : d ∈ e n := by
    rw [hsplit]
    exact List.mem_append_right pre List.mem_cons_self
  refine ⟨pre, d, post, q', hsplit, passed_of_deadRef hpast hpast', rfl, ?_⟩
  rcases hdecides' with ⟨rfl, -⟩ | ⟨m, rfl, hreads'⟩
  · exact .inl ⟨he.value n d hd v hmeant, hmeant⟩
  · obtain ⟨i, way, c, rfl, hhead⟩ := hreads'.exists_head
    rcases hdecides with ⟨-, hnil⟩ | ⟨m', htaken, hreads⟩
    · cases hnil
    · -- the reader looks the same name up, since the way goes on with a definition of it
      have hname : m = m' := by
        by_contra hne
        obtain ⟨i', way', c', heq, hhead'⟩ := hreads.exists_head
        cases heq
        exact he.apart n d hd m m' hmeant htaken hne i c c' hhead hhead'
      subst hname
      exact .inr ⟨m, htaken, hmeant, hreads, hreads'⟩

theorem agrees_of_reads (he : Faithful e) (h : Table.Reads (takenTable e) n r)
    (h' : Table.Reads (meantTable e) n r) : Agrees e n := by
  cases r with
  | none => exact .dead (Table.reads_none_iff.mp h) (Table.reads_none_iff.mp h')
  | some found =>
    obtain ⟨p, v⟩ := found
    induction p generalizing n with
    | nil =>
      obtain ⟨i, q, c, hway, -⟩ := h.exists_head
      cases hway
    | cons i p ih =>
      obtain ⟨pre, d, post, q, hsplit, hpre, hway, hdecides⟩ := exists_deciding he h h'
      cases hway
      rcases hdecides with ⟨htaken, hmeant⟩ | ⟨m, htaken, hmeant, hreads, hreads'⟩
      · exact .value hsplit hpre htaken hmeant
      · refine .ref hsplit hpre htaken hmeant (fun hdead => ?_) (ih hreads hreads')
        cases hdead.reads_eq hreads'

/-- The reader comes to what is meant, by the way that is meant, exactly when it agrees. -/
theorem agrees_iff (he : Faithful e) :
    Agrees e n ↔ ∃ r, Table.Reads (takenTable e) n r ∧ Table.Reads (meantTable e) n r := by
  constructor
  · exact Agrees.exists_reads
  · rintro ⟨r, h, h'⟩
    exact agrees_of_reads he h h'

end Reading

end SoftwareUpdate.Misc
