import Mathlib.Data.Set.Finite.Basic
import Mathlib.Data.Fintype.Card
import Mathlib.Logic.Relation

/-!
# Names that refer to names

A table gives every name a list of definitions, in the order in which they are tried. A
definition is a value, or a reference to a name that has to be looked up first; a reference that
cannot be resolved is passed over. A lookup gives the value it comes to and the tags of the
definitions on the way, and it comes to an end unless the references it follows run in a circle.
-/

namespace SoftwareUpdate.Misc

/-- A definition of a name. -/
inductive Target (ν β : Type*) where
  | value (v : β)
  | ref (n : ν)
  deriving DecidableEq, Repr

def Target.isValue {ν β : Type*} : Target ν β → Bool
  | .value _ => true
  | .ref _ => false

/-- The definitions of every name, each with its tag. -/
abbrev Table (ν ι β : Type*) := ν → List (ι × Target ν β)

namespace Table

variable {ν ι β : Type*} {t : Table ν ι β} {n m : ν} {r r' : Option (List ι × β)} {k k' : ℕ}
  {cs pre post : List (ι × Target ν β)} {i : ι} {v : β} {p : List ι}

/-- The definitions are tried in turn; `none` is a lookup that does not come back. -/
def scan (look : ν → Option (Option (List ι × β))) :
    List (ι × Target ν β) → Option (Option (List ι × β))
  | [] => some none
  | (i, .value v) :: _ => some (some ([i], v))
  | (i, .ref m) :: cs =>
      match look m with
      | none => none
      | some (some (p, v)) => some (some (i :: p, v))
      | some none => scan look cs

/-- The lookup, with a bound on the depth of its recursion. -/
def lookup (t : Table ν ι β) : ℕ → ν → Option (Option (List ι × β))
  | 0, _ => none
  | k + 1, n => scan (lookup t k) (t n)

/-- The lookup of the name comes to an end. -/
def Terminates (t : Table ν ι β) (n : ν) : Prop := ∃ k r, lookup t k n = some r

/-- A name is dead when all its definitions are references to dead names. -/
inductive Dead (t : Table ν ι β) : ν → Prop
  | intro {n : ν} (hvalue : ∀ i v, (i, .value v) ∉ t n)
      (href : ∀ i m, (i, .ref m) ∈ t n → Dead t m) : Dead t n

/-- The definition is a reference to a dead name. -/
def DeadRef (t : Table ν ι β) (c : ι × Target ν β) : Prop := ∃ m, c.2 = .ref m ∧ Dead t m

/-- The lookup of a name goes on with the name that a definition refers to, since the definitions
before it are dead. -/
def Follows (t : Table ν ι β) (n m : ν) : Prop :=
  ∃ pre i post, t n = pre ++ (i, .ref m) :: post ∧ ∀ c ∈ pre, DeadRef t c

/-- What a lookup comes to. -/
inductive Reads (t : Table ν ι β) : ν → Option (List ι × β) → Prop
  | dead {n : ν} (h : Dead t n) : Reads t n none
  | value {n : ν} {pre post : List (ι × Target ν β)} {i : ι} {v : β}
      (hsplit : t n = pre ++ (i, .value v) :: post)
      (hpre : ∀ c ∈ pre, DeadRef t c) : Reads t n (some ([i], v))
  | ref {n m : ν} {pre post : List (ι × Target ν β)} {i : ι} {p : List ι} {v : β}
      (hsplit : t n = pre ++ (i, .ref m) :: post)
      (hpre : ∀ c ∈ pre, DeadRef t c) (h : Reads t m (some (p, v))) :
      Reads t n (some (i :: p, v))

theorem dead_of_deadRefs (h : ∀ c ∈ t n, DeadRef t c) : Dead t n := by
  refine Dead.intro (fun i v hmem => ?_) fun i m hmem => ?_
  · obtain ⟨m, hm, -⟩ := h _ hmem
    cases hm
  · obtain ⟨m', hm, hdead⟩ := h _ hmem
    cases hm
    exact hdead

theorem Dead.deadRef (h : Dead t n) {c : ι × Target ν β} (hc : c ∈ t n) : DeadRef t c := by
  obtain ⟨hvalue, href⟩ := h
  obtain ⟨i, target⟩ := c
  cases target with
  | value v => exact absurd hc (hvalue i v)
  | ref m => exact ⟨m, rfl, href i m hc⟩

/-! ## The lookup computes what it reads -/

/-- What is tried when the definitions in `pre` are dead. -/
theorem reads_of_scan {look : ν → Option (Option (List ι × β))}
    (hlook : ∀ m r, look m = some r → Reads t m r) (hsplit : t n = pre ++ cs)
    (hpre : ∀ c ∈ pre, DeadRef t c) (h : scan look cs = some r) : Reads t n r := by
  induction cs generalizing pre with
  | nil =>
    cases h
    exact .dead (dead_of_deadRefs (by simpa [hsplit] using hpre))
  | cons c cs ih =>
    obtain ⟨i, target⟩ := c
    cases target with
    | value v =>
      cases h
      exact .value hsplit hpre
    | ref m =>
      rw [scan] at h
      cases hm : look m with
      | none => simp [hm] at h
      | some o =>
        cases o with
        | some q =>
          obtain ⟨p, v⟩ := q
          simp only [hm, Option.some.injEq] at h
          subst h
          exact .ref hsplit hpre (hlook m _ hm)
        | none =>
          simp only [hm] at h
          cases hlook m _ hm with
          | dead hdead =>
            have hnext : t n = (pre ++ [(i, .ref m)]) ++ cs := by simpa using hsplit
            refine ih hnext (fun c hc => ?_) h
            rcases List.mem_append.mp hc with hc | hc
            · exact hpre c hc
            · obtain rfl := List.mem_singleton.mp hc
              exact ⟨m, rfl, hdead⟩

theorem reads_of_lookup (h : lookup t k n = some r) : Reads t n r := by
  induction k generalizing n r with
  | zero => cases h
  | succ k ih => exact reads_of_scan (fun m r => ih) (List.nil_append _).symm (by simp) h

theorem mem_of_split {c : ι × Target ν β} (h : t n = pre ++ c :: post) : c ∈ t n := by
  rw [h]
  exact List.mem_append_right pre List.mem_cons_self

theorem Dead.reads_eq (h : Dead t n) (hr : Reads t n r) : r = none := by
  induction h generalizing r with
  | intro hvalue href ih =>
    cases hr with
    | dead _ => rfl
    | value hsplit _ => exact absurd (mem_of_split hsplit) (hvalue _ _)
    | ref hsplit _ h' => cases ih _ _ (mem_of_split hsplit) h'

theorem scan_mono {look look' : ν → Option (Option (List ι × β))}
    (hlook : ∀ m r, look m = some r → look' m = some r) (h : scan look cs = some r) :
    scan look' cs = some r := by
  induction cs with
  | nil => exact h
  | cons c cs ih =>
    obtain ⟨i, target⟩ := c
    cases target with
    | value v => exact h
    | ref m =>
      rw [scan] at h ⊢
      cases hm : look m with
      | none => simp [hm] at h
      | some o =>
        rw [hlook m o hm]
        rw [hm] at h
        cases o with
        | some q => exact h
        | none => exact ih h

theorem lookup_mono (h : lookup t k n = some r) (hk : k ≤ k') : lookup t k' n = some r := by
  induction k generalizing n r k' with
  | zero => cases h
  | succ k ih =>
    obtain ⟨k', rfl⟩ := Nat.exists_eq_add_of_le' (Nat.le_trans (Nat.succ_le_succ k.zero_le) hk)
    exact scan_mono (fun m r hm => ih hm (Nat.le_of_succ_le_succ hk)) h

/-- Definitions that come to nothing are passed over. -/
theorem scan_append {look : ν → Option (Option (List ι × β))}
    (h : ∀ c ∈ pre, ∃ m, c.2 = .ref m ∧ look m = some none) :
    scan look (pre ++ cs) = scan look cs := by
  induction pre with
  | nil => rfl
  | cons c pre ih =>
    obtain ⟨i, target⟩ := c
    obtain ⟨m, htarget, hm⟩ := h _ List.mem_cons_self
    cases htarget
    rw [List.cons_append, scan]
    simp only [hm]
    exact ih fun c hc => h c (List.mem_cons_of_mem _ hc)

theorem exists_lookup_refs (h : ∀ c ∈ cs, ∃ m, c.2 = .ref m ∧ ∃ k, lookup t k m = some none) :
    ∃ k, ∀ c ∈ cs, ∃ m, c.2 = .ref m ∧ lookup t k m = some none := by
  induction cs with
  | nil => exact ⟨0, by simp⟩
  | cons c cs ih =>
    obtain ⟨k, hk⟩ := ih fun c hc => h c (List.mem_cons_of_mem _ hc)
    obtain ⟨m, hc, k', hm⟩ := h c List.mem_cons_self
    refine ⟨max k k', fun c' hc' => ?_⟩
    rcases List.mem_cons.mp hc' with rfl | hmem
    · exact ⟨m, hc, lookup_mono hm (Nat.le_max_right k k')⟩
    · obtain ⟨m', hc', hm'⟩ := hk c' hmem
      exact ⟨m', hc', lookup_mono hm' (Nat.le_max_left k k')⟩

theorem Dead.exists_lookup (h : Dead t n) : ∃ k, lookup t k n = some none := by
  induction h with
  | @intro n hvalue href ih =>
    have hrefs : ∀ c ∈ t n, ∃ m, c.2 = .ref m ∧ ∃ k, lookup t k m = some none := by
      intro c hc
      obtain ⟨m, hm, -⟩ := (Dead.intro hvalue href).deadRef hc
      exact ⟨m, hm, ih c.1 m (by rw [← hm]; exact hc)⟩
    obtain ⟨k, hk⟩ := exists_lookup_refs hrefs
    refine ⟨k + 1, ?_⟩
    rw [lookup, ← List.append_nil (t n), scan_append hk, scan]

theorem exists_lookup_deadRefs (h : ∀ c ∈ cs, DeadRef t c) :
    ∃ k, ∀ c ∈ cs, ∃ m, c.2 = .ref m ∧ lookup t k m = some none := by
  refine exists_lookup_refs fun c hc => ?_
  obtain ⟨m, hm, hdead⟩ := h c hc
  exact ⟨m, hm, hdead.exists_lookup⟩

theorem Reads.exists_lookup (h : Reads t n r) : ∃ k, lookup t k n = some r := by
  induction h with
  | dead h => exact h.exists_lookup
  | value hsplit hpre =>
    obtain ⟨k, hk⟩ := exists_lookup_deadRefs hpre
    refine ⟨k + 1, ?_⟩
    rw [lookup, hsplit, scan_append hk, scan]
  | @ref n m pre post i p v hsplit hpre _ ih =>
    obtain ⟨k, hk⟩ := exists_lookup_deadRefs hpre
    obtain ⟨k', hm⟩ := ih
    refine ⟨max k k' + 1, ?_⟩
    have hpassed : ∀ c ∈ pre, ∃ m, c.2 = .ref m ∧ lookup t (max k k') m = some none := by
      intro c hc
      obtain ⟨q, hq, hlook⟩ := hk c hc
      exact ⟨q, hq, lookup_mono hlook (Nat.le_max_left k k')⟩
    rw [lookup, hsplit, scan_append hpassed, scan,
      lookup_mono hm (Nat.le_max_right k k')]

theorem reads_iff : Reads t n r ↔ ∃ k, lookup t k n = some r := by
  constructor
  · exact Reads.exists_lookup
  · rintro ⟨k, h⟩
    exact reads_of_lookup h

theorem Reads.unique (h : Reads t n r) (h' : Reads t n r') : r = r' := by
  obtain ⟨k, hk⟩ := h.exists_lookup
  obtain ⟨k', hk'⟩ := h'.exists_lookup
  have hmax := lookup_mono hk (Nat.le_max_left k k')
  rw [lookup_mono hk' (Nat.le_max_right k k')] at hmax
  exact (Option.some.inj hmax).symm

theorem reads_none_iff : Reads t n none ↔ Dead t n := by
  constructor
  · intro h
    cases h with
    | dead hdead => exact hdead
  · exact .dead

/-- What decides a lookup that finds a value. -/
theorem Reads.exists_deciding (h : Reads t n (some (p, v))) :
    ∃ pre i c post q, t n = pre ++ (i, c) :: post ∧ (∀ c ∈ pre, DeadRef t c) ∧ p = i :: q ∧
      (c = .value v ∧ q = [] ∨ ∃ m, c = .ref m ∧ Reads t m (some (q, v))) := by
  cases h with
  | value hsplit hpre => exact ⟨_, _, _, _, [], hsplit, hpre, rfl, .inl ⟨rfl, rfl⟩⟩
  | ref hsplit hpre h => exact ⟨_, _, _, _, _, hsplit, hpre, rfl, .inr ⟨_, rfl, h⟩⟩

/-- A value that is read is the value of some definition. -/
theorem Reads.exists_value (h : Reads t n (some (p, v))) : ∃ m i, (i, .value v) ∈ t m := by
  generalize hr : some (p, v) = r at h
  induction h generalizing p with
  | dead _ => cases hr
  | value hsplit _ =>
    cases hr
    exact ⟨_, _, mem_of_split hsplit⟩
  | ref _ _ _ ih =>
    cases hr
    exact ih rfl

/-- The way to a value begins with a definition of the name. -/
theorem Reads.exists_head (h : Reads t n (some (p, v))) : ∃ i q c, p = i :: q ∧ (i, c) ∈ t n := by
  obtain ⟨pre, i, c, post, q, hsplit, -, hway, -⟩ := h.exists_deciding
  exact ⟨i, q, c, hway, mem_of_split hsplit⟩

theorem terminates_iff_reads : Terminates t n ↔ ∃ r, Reads t n r := by
  simp only [reads_iff, Terminates]
  exact exists_comm

/-! ## Circles -/

/-- A lookup that comes back has looked up the names that it follows. -/
theorem terminates_of_follows (h : lookup t (k + 1) n = some r) (hf : Follows t n m) :
    ∃ r', lookup t k m = some r' := by
  obtain ⟨pre, i, post, hsplit, hpre⟩ := hf
  rw [lookup, hsplit] at h
  clear hsplit
  induction pre with
  | nil =>
    rw [List.nil_append, scan] at h
    cases hm : lookup t k m with
    | none => simp [hm] at h
    | some r' => exact ⟨r', rfl⟩
  | cons c pre ih =>
    obtain ⟨j, target⟩ := c
    obtain ⟨q, hq, hdead⟩ := hpre _ List.mem_cons_self
    cases hq
    rw [List.cons_append, scan] at h
    cases hlook : lookup t k q with
    | none => simp [hlook] at h
    | some o =>
      cases hdead.reads_eq (reads_of_lookup hlook)
      simp only [hlook] at h
      exact ih h fun c hc => hpre c (List.mem_cons_of_mem _ hc)

theorem acc_of_lookup (h : lookup t k n = some r) : Acc (fun a b => Follows t b a) n := by
  induction k generalizing n r with
  | zero => cases h
  | succ k ih =>
    refine Acc.intro n fun m hm => ?_
    obtain ⟨r', hr'⟩ := terminates_of_follows h hm
    exact ih hr'

/-- The definitions behind dead ones come to an end when the names that are followed do. -/
theorem exists_scan (hfollow : ∀ m, Follows t n m → Terminates t m) (hsplit : t n = pre ++ cs)
    (hpre : ∀ c ∈ pre, DeadRef t c) : ∃ k r, scan (lookup t k) cs = some r := by
  induction cs generalizing pre with
  | nil => exact ⟨0, none, rfl⟩
  | cons c cs ih =>
    obtain ⟨i, target⟩ := c
    cases target with
    | value v => exact ⟨0, some ([i], v), rfl⟩
    | ref m =>
      obtain ⟨k, o, hm⟩ := hfollow m ⟨pre, i, cs, hsplit, hpre⟩
      cases o with
      | some q =>
        refine ⟨k, some (i :: q.1, q.2), ?_⟩
        rw [scan, hm]
      | none =>
        have hdead := reads_none_iff.mp (reads_of_lookup hm)
        have hnext : t n = (pre ++ [(i, .ref m)]) ++ cs := by simpa using hsplit
        have hpast : ∀ c ∈ pre ++ [(i, .ref m)], DeadRef t c := by
          intro c hc
          rcases List.mem_append.mp hc with hc | hc
          · exact hpre c hc
          · obtain rfl := List.mem_singleton.mp hc
            exact ⟨m, rfl, hdead⟩
        obtain ⟨k', r, hk'⟩ := ih hnext hpast
        refine ⟨max k k', r, ?_⟩
        rw [scan, lookup_mono hm (Nat.le_max_left k k')]
        exact scan_mono (fun m r h => lookup_mono h (Nat.le_max_right k k')) hk'

theorem terminates_iff_acc : Terminates t n ↔ Acc (fun a b => Follows t b a) n := by
  constructor
  · rintro ⟨k, r, h⟩
    exact acc_of_lookup h
  · intro h
    induction h with
    | intro n _ ih =>
      obtain ⟨k, r, h⟩ := exists_scan (fun m hm => ih m hm) (List.nil_append (t n)).symm (by simp)
      exact ⟨k + 1, r, h⟩

theorem not_transGen_of_acc (h : Acc (fun a b => Follows t b a) n) :
    ¬ Relation.TransGen (Follows t) n n := by
  induction h with
  | intro n _ ih =>
    intro hcycle
    obtain ⟨m, hm, hback⟩ := Relation.TransGen.head'_iff.mp hcycle
    exact ih m hm (Relation.TransGen.tail' hback hm)

theorem acc_of_acyclic (hfin : {m | Relation.ReflTransGen (Follows t) n m}.Finite)
    (h : ¬ ∃ m, Relation.ReflTransGen (Follows t) n m ∧ Relation.TransGen (Follows t) m m) :
    Acc (fun a b => Follows t b a) n := by
  -- on the finitely many names that are reached, leading to a name is a strict order
  let below (a b : {m // Relation.ReflTransGen (Follows t) n m}) : Prop :=
    Relation.TransGen (Follows t) b.1 a.1
  have hfinite : Finite {m // Relation.ReflTransGen (Follows t) n m} := hfin
  have htrans : IsTrans _ below := ⟨fun _ _ _ hab hbc => hbc.trans hab⟩
  have hirrefl : Std.Irrefl below := ⟨fun a ha => h ⟨a.1, a.2, ha⟩⟩
  have hwf : WellFounded below := Finite.wellFounded_of_trans_of_irrefl below
  have hacc (a : {m // Relation.ReflTransGen (Follows t) n m}) :
      Acc (fun a b => Follows t b a) a.1 := by
    induction a using hwf.induction with
    | _ a ih =>
      refine Acc.intro a.1 fun m hm => ?_
      exact ih ⟨m, a.2.tail hm⟩ (.single hm)
  exact hacc ⟨n, .refl⟩

/-- With finitely many names, a lookup comes to an end exactly when no name on its way leads back
to itself. -/
theorem terminates_iff (hfin : {m | ∃ n i, (i, .ref m) ∈ t n}.Finite) :
    Terminates t n ↔ ¬ ∃ m, Relation.ReflTransGen (Follows t) n m ∧
      Relation.TransGen (Follows t) m m := by
  rw [terminates_iff_acc]
  constructor
  · rintro h ⟨m, hreach, hcycle⟩
    have hacc : Acc (fun a b => Follows t b a) m := by
      clear hcycle
      induction hreach with
      | refl => exact h
      | tail _ hstep ih => exact ih.inv hstep
    exact not_transGen_of_acc hacc hcycle
  · intro h
    have hreach : {m | Relation.ReflTransGen (Follows t) n m}.Finite := by
      refine (hfin.insert n).subset fun m hm => ?_
      rcases Relation.ReflTransGen.cases_tail hm with rfl | ⟨q, -, pre, i, post, hsplit, -⟩
      · exact Set.mem_insert m _
      · exact Set.mem_insert_of_mem _ ⟨q, i, mem_of_split hsplit⟩
    exact acc_of_acyclic hreach h

end Table

end SoftwareUpdate.Misc
