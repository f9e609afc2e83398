import Mathlib.Data.List.Zip
import SoftwareUpdate.MaintenanceManager.DeviceContext

/-!
# When the device context counts as set

`setDeviceInitializationContext` succeeds when no string it read was empty. The result of the
RFC writes is dropped, and a label that is absent reads as text that is not empty, so it is
written like a value.
-/

namespace SoftwareUpdate.MaintenanceManager

open Helpers

variable {services : Services} {context : JsonObject} {key : ContextKey} {w : Written}

/-! ## What the loop writes -/

/-- The keys of which the loop writes what it read. -/
def writtenKeys (services : Services) (context : JsonObject) (keys : List ContextKey) :
    List ContextKey :=
  keys.filter fun key => labelString services context key.label ≠ []

/-- The n-th write, when it is the one of `key`. -/
def contextWrite (services : Services) (context : JsonObject) (e : ContextKey × ℕ) : RfcWrite :=
  let value := labelString services context e.1.label
  { callerId := MAINTENANCE_MANAGER_RFC_CALLER_ID
    rfc := cStr e.1.param
    value := cStr (if e.1 = .regionalConfigService then "https://".toList ++ value else value)
    dataType := e.1.paramType
    status := services.setRFCParameter e.2 }

theorem setContextKey_of_ne_nil {b : Bool} (h : labelString services context key.label ≠ []) :
    (setContextKey services context (w, b) key).1.rfcWrites =
        w.rfcWrites ++ [contextWrite services context (key, w.rfcWrites.length)] ∧
      (setContextKey services context (w, b) key).2 = b := by
  simp only [setContextKey, if_pos h, and_true]
  cases key
  · unfold setPartnerId
    cases services.authService <;> rfl
  · rfl
  · rfl

theorem setContextKey_of_eq_nil {b : Bool} (h : labelString services context key.label = []) :
    setContextKey services context (w, b) key = (w, true) := by
  simp [setContextKey, h]

/-- The RFC writes of the loop, one for every key that was read as non-empty. -/
theorem rfcWrites_foldl (keys : List ContextKey) (b : Bool) :
    (keys.foldl (setContextKey services context) (w, b)).1.rfcWrites =
      w.rfcWrites ++ ((writtenKeys services context keys).zipIdx w.rfcWrites.length).map
        (contextWrite services context) := by
  induction keys generalizing w b with
  | nil => simp [writtenKeys]
  | cons key keys ih =>
    rw [List.foldl_cons]
    by_cases h : labelString services context key.label = []
    · rw [setContextKey_of_eq_nil h, ih]
      simp [writtenKeys, h]
    · have hstep := (setContextKey_of_ne_nil (w := w) (b := b) h).1
      rw [ih, hstep]
      simp [writtenKeys, h]

/-- The flag of the loop is raised by a key that was read as empty. -/
theorem paramEmpty_foldl (keys : List ContextKey) (b : Bool) :
    (keys.foldl (setContextKey services context) (w, b)).2 =
      (b || keys.any fun key => labelString services context key.label = []) := by
  induction keys generalizing w b with
  | nil => simp
  | cons key keys ih =>
    rw [List.foldl_cons]
    by_cases h : labelString services context key.label = []
    · rw [setContextKey_of_eq_nil h, ih]
      simp [h]
    · have hstep := (setContextKey_of_ne_nil (w := w) (b := b) h).2
      rw [ih, hstep]
      simp [h]

/-- Only the turn of the partner id calls the AuthService. -/
theorem partnerIds_foldl (keys : List ContextKey) (b : Bool)
    (h : ∀ key ∈ keys, key = .partnerId → labelString services context key.label = []) :
    (keys.foldl (setContextKey services context) (w, b)).1.partnerIds = w.partnerIds := by
  induction keys generalizing w b with
  | nil => rfl
  | cons key keys ih =>
    have hkeys := fun key hkey => h key (List.mem_cons_of_mem _ hkey)
    rw [List.foldl_cons, ih (setContextKey services context (w, b) key).2 hkeys]
    by_cases hread : labelString services context key.label = []
    · rw [setContextKey_of_eq_nil hread]
    · have hne : key ≠ .partnerId := fun heq => hread (h key List.mem_cons_self heq)
      simp only [setContextKey, if_pos hread, if_neg hne]
      rfl

theorem setDeviceInitializationContext_snd :
    (setDeviceInitializationContext services context).2 = true ↔
      ∀ key : ContextKey, labelString services context key.label ≠ [] := by
  show (!(ContextKey.all.foldl (setContextKey services context) (⟨[], []⟩, false)).2) = true ↔ _
  rw [paramEmpty_foldl]
  simp [ContextKey.mem_all]

theorem rfcWrites_setDeviceInitializationContext :
    (setDeviceInitializationContext services context).1.rfcWrites =
      (writtenKeys services context ContextKey.all).zipIdx.map (contextWrite services context) :=
  rfcWrites_foldl ContextKey.all false

theorem rfc_contextWrite {e : ContextKey × ℕ} :
    (contextWrite services context e).rfc = e.1.param := by
  obtain ⟨key, n⟩ := e
  refine CSettings.cStr_eq_self ?_
  show '\x00' ∉ key.param
  cases key <;> decide

/-! ## The property -/

/-- The label is there, and its value is not empty. -/
def HasValue (context : JsonObject) (key : ContextKey) : Prop :=
  ∃ value, context.get? key.label = some value ∧ value ≠ []

/-- The RFC parameter of the key was written, and every write of it succeeded. -/
def WriteSucceeded (w : Written) (key : ContextKey) : Prop :=
  (∃ c ∈ w.rfcWrites, c.rfc = key.param) ∧
    ∀ c ∈ w.rfcWrites, c.rfc = key.param → c.status = .success

/-- The call returns true exactly when it has set every parameter, and it writes nothing for a
label without a value. -/
structure SetOnlyWhenWritten (services : Services) (context : JsonObject) : Prop where
  result : (setDeviceInitializationContext services context).2 = true ↔
    ∀ key, HasValue context key ∧
      WriteSucceeded (setDeviceInitializationContext services context).1 key
  rfcUnwritten : ∀ key, ¬ HasValue context key →
    ∀ c ∈ (setDeviceInitializationContext services context).1.rfcWrites, c.rfc ≠ key.param
  partnerIdUnset : ¬ HasValue context .partnerId →
    (setDeviceInitializationContext services context).1.partnerIds = []

/-- All labels are there, and either one of them is empty or the three writes succeed. -/
def AllLabelsAndWrites (services : Services) (context : JsonObject) : Prop :=
  (∀ key : ContextKey, context.get? key.label ≠ none) ∧
    ((∃ key : ContextKey, context.get? key.label = some []) ∨
      ∀ n < 3, services.setRFCParameter n = .success)

theorem labelString_ne_nil_iff (h : context.get? key.label ≠ none) :
    labelString services context key.label ≠ [] ↔ HasValue context key := by
  obtain ⟨value, hvalue⟩ := Option.ne_none_iff_exists'.mp h
  simp [labelString, HasValue, hvalue]

/-- A parameter is written exactly when its label is read as non-empty. -/
theorem exists_write_iff :
    (∃ c ∈ (setDeviceInitializationContext services context).1.rfcWrites, c.rfc = key.param) ↔
      labelString services context key.label ≠ [] := by
  rw [rfcWrites_setDeviceInitializationContext]
  constructor
  · rintro ⟨c, hc, hrfc⟩
    obtain ⟨e, he, rfl⟩ := List.mem_map.mp hc
    have hkey : e.1 = key := ContextKey.param_injective (rfc_contextWrite ▸ hrfc)
    have hmem := List.fst_mem_of_mem_zipIdx he
    simpa [writtenKeys, hkey] using (List.mem_filter.mp hmem).2
  · intro h
    have hmem : key ∈ writtenKeys services context ContextKey.all := by
      simp [writtenKeys, ContextKey.mem_all, h]
    obtain ⟨n, hn, hget⟩ := List.mem_iff_getElem.mp hmem
    have he : (key, n) ∈ (writtenKeys services context ContextKey.all).zipIdx := by
      simp [List.mem_zipIdx_iff_getElem?, List.getElem?_eq_getElem hn, hget]
    exact ⟨_, List.mem_map_of_mem he, rfc_contextWrite⟩

/-- When all three labels are read as non-empty, the writes take the first three answers. -/
theorem forall_writeSucceeded_iff
    (h : ∀ key : ContextKey, labelString services context key.label ≠ []) :
    (∀ key, WriteSucceeded (setDeviceInitializationContext services context).1 key) ↔
      ∀ n < 3, services.setRFCParameter n = .success := by
  have hkeys : writtenKeys services context ContextKey.all = ContextKey.all := by
    simp [writtenKeys, h]
  have hwrites : (setDeviceInitializationContext services context).1.rfcWrites =
      ContextKey.all.zipIdx.map (contextWrite services context) := by
    rw [rfcWrites_setDeviceInitializationContext, hkeys]
  constructor
  · intro hall n hn
    have hlen : n < ContextKey.all.length := hn
    have he : (ContextKey.all[n], n) ∈ ContextKey.all.zipIdx := by
      simp [List.mem_zipIdx_iff_getElem?, List.getElem?_eq_getElem hlen]
    exact (hall ContextKey.all[n]).2 _ (hwrites ▸ List.mem_map_of_mem he) rfc_contextWrite
  · intro hall key
    refine ⟨exists_write_iff.mpr (h key), ?_⟩
    intro c hc _
    rw [hwrites] at hc
    obtain ⟨e, he, rfl⟩ := List.mem_map.mp hc
    exact hall e.2 (List.snd_lt_of_mem_zipIdx he)

/-! ## Where it holds -/

theorem SetOnlyWhenWritten.get?_ne_none (h : SetOnlyWhenWritten services context)
    (habsent : services.absentLabel ≠ []) : context.get? key.label ≠ none := by
  intro hnone
  have hvalue : ¬ HasValue context key := by
    rintro ⟨value, hget, -⟩
    rw [hnone] at hget
    cases hget
  have hread : labelString services context key.label ≠ [] := by simpa [labelString, hnone]
  obtain ⟨c, hc, hrfc⟩ := exists_write_iff.mpr hread
  exact h.rfcUnwritten key hvalue c hc hrfc

theorem setOnlyWhenWritten_of_empty (hlabels : ∀ key : ContextKey, context.get? key.label ≠ none)
    (hempty : context.get? key.label = some []) : SetOnlyWhenWritten services context := by
  have hread (key : ContextKey) : labelString services context key.label ≠ [] ↔
      HasValue context key := labelString_ne_nil_iff (hlabels key)
  have hvalue : ¬ HasValue context key := by simp [HasValue, hempty]
  constructor
  · rw [setDeviceInitializationContext_snd]
    constructor
    · intro h
      exact absurd ((hread key).mp (h key)) hvalue
    · intro h
      exact absurd (h key).1 hvalue
  · intro key' hkey' c hc hrfc
    exact hkey' ((hread key').mp (exists_write_iff.mp ⟨c, hc, hrfc⟩))
  · intro hpartner
    refine partnerIds_foldl ContextKey.all false ?_
    rintro key' - rfl
    simpa [hpartner] using not_congr (hread .partnerId)

theorem setOnlyWhenWritten_of_values (hvalues : ∀ key, HasValue context key) :
    SetOnlyWhenWritten services context ↔ ∀ n < 3, services.setRFCParameter n = .success := by
  have hread (key : ContextKey) : labelString services context key.label ≠ [] := by
    obtain ⟨value, hget, hne⟩ := hvalues key
    simpa [labelString, hget] using hne
  have htrue := setDeviceInitializationContext_snd.mpr hread
  rw [← forall_writeSucceeded_iff hread]
  constructor
  · intro h key
    exact (h.result.mp htrue key).2
  · intro h
    constructor
    · exact ⟨fun _ key => ⟨hvalues key, h key⟩, fun _ => htrue⟩
    · intro key hkey
      exact absurd (hvalues key) hkey
    · intro hkey
      exact absurd (hvalues .partnerId) hkey

/-- The device context counts as set only when it was written, and a label without a value is
never written, exactly when all three labels are there and either one of them is empty or all
three writes succeed. -/
theorem setOnlyWhenWritten_iff (habsent : services.absentLabel ≠ []) :
    SetOnlyWhenWritten services context ↔ AllLabelsAndWrites services context := by
  by_cases hlabels : ∀ key : ContextKey, context.get? key.label ≠ none
  · by_cases hempty : ∃ key : ContextKey, context.get? key.label = some []
    · obtain ⟨key, hkey⟩ := hempty
      exact ⟨fun _ => ⟨hlabels, .inl ⟨key, hkey⟩⟩,
        fun _ => setOnlyWhenWritten_of_empty hlabels hkey⟩
    · have hvalues (key : ContextKey) : HasValue context key := by
        obtain ⟨value, hget⟩ := Option.ne_none_iff_exists'.mp (hlabels key)
        refine ⟨value, hget, ?_⟩
        rintro rfl
        exact hempty ⟨key, hget⟩
      rw [setOnlyWhenWritten_of_values hvalues]
      exact ⟨fun h => ⟨hlabels, .inr h⟩, fun h => h.2.resolve_left hempty⟩
  · constructor
    · intro h
      exact absurd (fun key => h.get?_ne_none habsent) hlabels
    · intro h
      exact absurd h.1 hlabels

/-- The three labels with their values. -/
def sampleContext : JsonObject :=
  ((Misc.OrderedMap.empty.set "partnerId".toList "Sky".toList).set "osClass".toList
    "stb".toList).set "regionalConfigService".toList "region.sky.com".toList

/-- Services of which every RFC write answers `status`. -/
def sampleServices (status : WdmpStatus) : Services := ⟨fun _ => status, true, "null".toList⟩

theorem setOnlyWhenWritten_sample :
    SetOnlyWhenWritten (sampleServices .success) sampleContext :=
  (setOnlyWhenWritten_iff (by decide)).mpr
    ⟨by intro key; cases key <;> decide, .inr fun _ _ => rfl⟩

/-- Every write fails, and the context counts as set. -/
theorem not_setOnlyWhenWritten_failed :
    ¬ SetOnlyWhenWritten (sampleServices (.err 1)) sampleContext := by
  intro h
  have htrue :
      (setDeviceInitializationContext (sampleServices (.err 1)) sampleContext).2 = true := by
    decide
  have hwrite := (h.result.mp htrue .osClass).2.2
  exact absurd (hwrite (contextWrite (sampleServices (.err 1)) sampleContext (.osClass, 1))
    (by decide) (by decide)) (by decide)

end SoftwareUpdate.MaintenanceManager
