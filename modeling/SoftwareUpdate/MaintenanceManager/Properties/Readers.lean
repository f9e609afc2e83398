import SoftwareUpdate.MaintenanceManager.Mode

/-!
# The two readers of the record file

`m_setting` reads the record file when it is constructed and splits a line at its last `=`;
`getMaintenanceMode` reads it in every call and splits a line at its first `=`. The first one
takes the last line of a key, the second one the first line. As long as nothing is written they
agree on the opt-out mode when the first line that begins with `softwareoptout=` has the mode of
the last one that sets `softwareoptout`. A write puts every key on one line; then they agree when
no key that begins with `softwareoptout=` comes before.
-/

namespace SoftwareUpdate.MaintenanceManager

open Misc Misc.OrderedMap Helpers Helpers.CSettings

variable {st : ModeState} {setting : CSettings} {f : File} {content value l : Text}
  {data : JsonObject} {es : List (Text × Text)}

/-- `getMaintenanceMode` succeeds and reports the opt-out mode that `m_setting` holds. -/
structure ReadersAgree (st : ModeState) : Prop where
  success : (getMaintenanceMode st).success = true
  optOut : (getMaintenanceMode st).optOut = some (st.setting.getValue softwareOptOut)
  valid : checkValidOptOutModes (st.setting.getValue softwareOptOut) = true

/-- A call of `setMaintenanceMode`: the status, whether the broadcast succeeds, and the
parameters. -/
abbrev ModeCall := NotifyStatus × Bool × JsonObject

def ModeState.calls (st : ModeState) (cs : List ModeCall) : ModeState :=
  cs.foldl (fun st c => (setMaintenanceMode st c.1 c.2.1 c.2.2).1) st

/-- `softwareoptout=`. -/
def optOutPrefix : Text := softwareOptOut ++ ['=']

/-- The line sets the key: the text before its last `=`, as a C string. -/
def Sets (l key value : Text) : Prop :=
  ∃ text, l = text ++ '=' :: value ∧ '=' ∉ value ∧ cStr text = key

/-- The last line that sets the key has the value. -/
def LastSets (ls : List Text) (key value : Text) : Prop :=
  ∃ before l behind, ls = before ++ l :: behind ∧ Sets l key value ∧
    ∀ l' ∈ behind, ∀ value', ¬ Sets l' key value'

/-- A key that begins with `softwareoptout=` and has a value. -/
def MisreadKey (ls : List Text) (key : Text) : Prop :=
  optOutPrefix <+: key ∧ ∃ value, value ≠ [] ∧ LastSets ls key value

/-- The call changes the mode or stores an opt-out mode. -/
def ModeCall.writes (c : ModeCall) : Bool :=
  match c.2.2.get? "maintenanceMode".toList, c.2.2.get? "optOut".toList with
  | some newMode, some newOptOut =>
      decide (newMode = backgroundMode ∨ newMode = foregroundMode) &&
        (c.1 != .started || c.2.1 || checkValidOptOutModes newOptOut)
  | _, _ => false

/-- A line that sets `softwareoptout` comes before all lines that set a misread key. -/
def Foremost (ls : List Text) : Prop :=
  ∃ before l behind, ls = before ++ l :: behind ∧ (∃ value, Sets l softwareOptOut value) ∧
    ∀ l' ∈ before, ∀ key value, Sets l' key value → ¬ MisreadKey ls key

/-- The last line that sets `softwareoptout` has a valid mode. -/
def HasMode (ls : List Text) (value : Text) : Prop :=
  checkValidOptOutModes value = true ∧ LastSets ls softwareOptOut value

/-- The file has a valid mode, and the first line that begins with `softwareoptout=` has it too,
or, when a call writes, no misread key comes first; or it has none, and no key is misread. -/
def OneOptOut (content : Text) (cs : List ModeCall) : Prop :=
  let ls := content.splitOn '\n'
  (∃ value, HasMode ls value ∧
    if cs.any ModeCall.writes then Foremost ls
    else ls.find? (fun l => optOutPrefix.isPrefixOf l) = some (optOutPrefix ++ value)) ∨
  (∀ value, ¬ HasMode ls value) ∧ ∀ key, ¬ MisreadKey ls key

/-! ## Opt-out modes -/

theorem separator_notMem_softwareOptOut : '=' ∉ softwareOptOut := by decide

theorem valid_none : checkValidOptOutModes "NONE".toList = true := by decide

theorem checkValidOptOutModes_cases (h : checkValidOptOutModes value = true) :
    value = "ENFORCE_OPTOUT".toList ∨ value = "BYPASS_OPTOUT".toList ∨
      value = "IGNORE_UPDATE".toList ∨ value = "NONE".toList := by
  simpa [checkValidOptOutModes] using h

/-- An opt-out mode is plain text. -/
theorem plain_of_valid (h : checkValidOptOutModes value = true) :
    value ≠ [] ∧ '=' ∉ value ∧ '\n' ∉ value ∧ '\x00' ∉ value := by
  rcases checkValidOptOutModes_cases h with rfl | rfl | rfl | rfl <;> decide

/-! ## The reader of `getMaintenanceMode` -/

/-- What `parseConfigFile` finds in one line. -/
def lineOptOut (l : Text) : Option Text :=
  match splitAtFirst '=' l with
  | some (key, value) => if key = softwareOptOut then some value else none
  | none => none

theorem lineOptOut_of_begins : lineOptOut (optOutPrefix ++ value) = some value := by
  have hsplit : splitAtFirst '=' (optOutPrefix ++ value) = some (softwareOptOut, value) := by
    rw [optOutPrefix, List.append_assoc, List.singleton_append]
    exact splitAtFirst_append separator_notMem_softwareOptOut
  simp [lineOptOut, hsplit]

theorem lineOptOut_of_not_begins (h : ¬ optOutPrefix <+: l) : lineOptOut l = none := by
  unfold lineOptOut
  split
  · next key value hsplit =>
    obtain ⟨rfl, -⟩ := splitAtFirst_eq_some_iff.mp hsplit
    split
    · next hkey =>
      refine absurd ?_ h
      rw [hkey, optOutPrefix]
      exact ⟨value, by simp⟩
    · rfl
  · rfl

/-- `parseConfigFile` goes by the first line that begins with `softwareoptout=`. -/
theorem findSome?_lineOptOut {ls : List Text} : ls.findSome? lineOptOut = some value ↔
    ls.find? (fun l => optOutPrefix.isPrefixOf l) = some (optOutPrefix ++ value) := by
  induction ls with
  | nil => simp
  | cons l ls ih =>
    by_cases hl : optOutPrefix <+: l
    · obtain ⟨rest, rfl⟩ := hl
      simp [lineOptOut_of_begins]
    · have hfalse : optOutPrefix.isPrefixOf l = false := by
        rw [← Bool.not_eq_true, List.isPrefixOf_iff_prefix]
        exact hl
      rw [List.findSome?_cons, lineOptOut_of_not_begins hl, List.find?_cons, hfalse]
      exact ih

theorem parseConfigFile_eq_some_iff : parseConfigFile content softwareOptOut = some value ↔
    (getFileContent content).find? (fun l => optOutPrefix.isPrefixOf l) =
      some (optOutPrefix ++ value) := findSome?_lineOptOut

/-- The readers agree when `parseConfigFile` finds the valid mode that `m_setting` holds. -/
theorem readersAgree_iff (hmode : st.currentMode = backgroundMode ∨ st.currentMode = foregroundMode)
    (hf : st.setting.file = some f) (hr : f.readable = true) : ReadersAgree st ↔
      checkValidOptOutModes (st.setting.getValue softwareOptOut) = true ∧
      parseConfigFile f.content softwareOptOut = some (st.setting.getValue softwareOptOut) := by
  have hread : readOptOut st.setting.file =
      (parseConfigFile f.content softwareOptOut).filter checkValidOptOutModes := by
    simp [readOptOut, hf, hr]
  have hno : ¬ (st.currentMode ≠ backgroundMode ∧ st.currentMode ≠ foregroundMode) :=
    not_and_or.mpr (hmode.imp not_not.mpr not_not.mpr)
  constructor
  · rintro ⟨hsuccess, hopt, hvalid⟩
    refine ⟨hvalid, ?_⟩
    unfold getMaintenanceMode at hsuccess hopt
    rw [if_neg hno] at hsuccess hopt
    cases hvalue : readOptOut st.setting.file with
    | none =>
      rw [hvalue] at hsuccess
      cases hsuccess
    | some value =>
      rw [hvalue] at hopt
      rw [hread, Option.filter_eq_some_iff] at hvalue
      obtain ⟨hparse, hvalid'⟩ := hvalue
      have hreported : some (cStr value) = some (st.setting.getValue softwareOptOut) := hopt
      rw [hparse, ← hreported, cStr_eq_self (plain_of_valid hvalid').2.2.2]
  · rintro ⟨hvalid, hparse⟩
    have hvalue : readOptOut st.setting.file = some (st.setting.getValue softwareOptOut) := by
      rw [hread, hparse, Option.filter_some, if_pos hvalid]
    constructor
    · unfold getMaintenanceMode
      rw [if_neg hno, hvalue]
    · unfold getMaintenanceMode
      rw [if_neg hno, hvalue]
      exact congrArg some (cStr_eq_self (plain_of_valid hvalid).2.2.2)
    · exact hvalid

/-! ## The lines that `m_setting` writes -/

/-- `getFileContent` reads the lines that `writeToFile` has written. -/
theorem getFileContent_writeLines (h : ∀ e ∈ data.entries, CSettings.OnLine e) :
    getFileContent (CSettings.writeLines data) =
      (data.entries.filter fun e => e.2 ≠ []).map CSettings.writeLine := by
  have hlines : CSettings.writeLines data =
      ((data.entries.filter fun e => e.2 ≠ []).map CSettings.writeLine).flatMap
        fun l => l ++ ['\n'] := by
    simp [CSettings.writeLines, List.flatMap_map]
  have hone : ∀ l ∈ (data.entries.filter fun e => e.2 ≠ []).map CSettings.writeLine,
      '\n' ∉ l := by
    intro l hl
    obtain ⟨e, he, rfl⟩ := List.mem_map.mp hl
    obtain ⟨-, hkey, hvalue⟩ := h e (List.mem_of_mem_filter he)
    simp [CSettings.writeLine, hkey, hvalue]
  unfold getFileContent
  rw [hlines, splitOn_terminated hone, List.filter_append]
  have hnonempty : ∀ l ∈ (data.entries.filter fun e => e.2 ≠ []).map CSettings.writeLine,
      decide (l ≠ []) = true := by
    intro l hl
    obtain ⟨e, -, rfl⟩ := List.mem_map.mp hl
    simp [CSettings.writeLine]
  rw [List.filter_eq_self.mpr hnonempty]
  simp

/-- An entry whose line begins with `softwareoptout=` although its key is another one. -/
def Misread (e : Text × Text) : Prop := optOutPrefix <+: e.1 ∧ e.2 ≠ []

theorem writeLine_softwareOptOut :
    writeLine (softwareOptOut, value) = optOutPrefix ++ value := by
  simp [writeLine, optOutPrefix]

/-- The line of another key begins with `softwareoptout=` only if the key does. -/
theorem begins_of_begins_writeLine {e : Text × Text} (hkey : e.1 ≠ softwareOptOut)
    (h : optOutPrefix <+: writeLine e) : optOutPrefix <+: e.1 := by
  obtain ⟨rest, hrest⟩ := h
  have hfirst : splitAtFirst '=' (writeLine e) = some (softwareOptOut, rest) := by
    rw [← hrest, optOutPrefix, List.append_assoc, List.singleton_append]
    exact splitAtFirst_append separator_notMem_softwareOptOut
  cases hsplit : splitAtFirst '=' e.1 with
  | none =>
    rw [writeLine, splitAtFirst_append (splitAtFirst_eq_none_iff.mp hsplit)] at hfirst
    exact absurd (congrArg Prod.fst (Option.some.inj hfirst)) hkey
  | some p =>
    obtain ⟨a, b⟩ := p
    obtain ⟨hk, ha⟩ := splitAtFirst_eq_some_iff.mp hsplit
    rw [writeLine, hk, List.append_assoc, List.cons_append, splitAtFirst_append ha] at hfirst
    have hopt : a = softwareOptOut := congrArg Prod.fst (Option.some.inj hfirst)
    exact ⟨b, by rw [hk, hopt, optOutPrefix, List.append_assoc, List.singleton_append]⟩

/-- The line of a leading `softwareoptout` is found among the lines written. -/
theorem findSome?_writeLines (hlead : Leads Misread softwareOptOut es)
    (hget : ∀ v, (softwareOptOut, v) ∈ es → v = value) (hne : value ≠ []) :
    ((es.filter fun e => e.2 ≠ []).map writeLine).findSome? lineOptOut = some value := by
  induction es with
  | nil => exact hlead.elim
  | cons e es ih =>
    obtain ⟨key, v⟩ := e
    by_cases hkey : key = softwareOptOut
    · subst hkey
      obtain rfl := hget v List.mem_cons_self
      rw [List.filter_cons_of_pos (by simpa using hne), List.map_cons, writeLine_softwareOptOut,
        List.findSome?_cons, lineOptOut_of_begins]
    · obtain ⟨hread, hrest⟩ := hlead.resolve_left hkey
      have hrestGet := fun v hv => hget v (List.mem_cons_of_mem _ hv)
      by_cases hv : v = []
      · rw [List.filter_cons_of_neg (by simpa using hv)]
        exact ih hrest hrestGet
      · have hother : lineOptOut (writeLine (key, v)) = none :=
          lineOptOut_of_not_begins fun h => hread ⟨begins_of_begins_writeLine hkey h, hv⟩
        rw [List.filter_cons_of_pos (by simpa using hv), List.map_cons, List.findSome?_cons, hother]
        exact ih hrest hrestGet

/-- Before a leading `softwareoptout`, the line of a misread entry spoils what is found. -/
theorem leads_of_findSome?_writeLines (hkey : softwareOptOut ∈ es.map Prod.fst)
    (hsep : '=' ∉ value)
    (h : ((es.filter fun e => e.2 ≠ []).map writeLine).findSome? lineOptOut = some value) :
    Leads Misread softwareOptOut es := by
  induction es with
  | nil => cases hkey
  | cons e es ih =>
    obtain ⟨key, v⟩ := e
    by_cases hopt : key = softwareOptOut
    · exact .inl hopt
    · have hrest : softwareOptOut ∈ es.map Prod.fst :=
        (List.mem_cons.mp hkey).resolve_left fun heq => hopt heq.symm
      by_cases hv : v = []
      · rw [List.filter_cons_of_neg (by simpa using hv)] at h
        exact .inr ⟨fun hmis => hmis.2 hv, ih hrest h⟩
      · rw [List.filter_cons_of_pos (by simpa using hv), List.map_cons, List.findSome?_cons] at h
        by_cases hbegins : optOutPrefix <+: key
        · obtain ⟨rest, rfl⟩ := hbegins
          have hline : writeLine (optOutPrefix ++ rest, v) =
              optOutPrefix ++ (rest ++ '=' :: v) := by
            rw [writeLine, List.append_assoc]
          rw [hline, lineOptOut_of_begins] at h
          cases h
          exact absurd (by simp) hsep
        · have hother : lineOptOut (writeLine (key, v)) = none :=
            lineOptOut_of_not_begins fun h => hbegins (begins_of_begins_writeLine hopt h)
          rw [hother] at h
          exact .inr ⟨fun hmis => hbegins hmis.1, ih hrest h⟩

/-! ## Settings that are read alike -/

/-- Both readers find the same valid opt-out mode, and will when the settings are written. -/
structure ReadAlike (s : CSettings) : Prop where
  file : ∃ f, s.file = some f ∧ f.readable = true ∧ f.writable = true ∧
    parseConfigFile f.content softwareOptOut = some (s.getValue softwareOptOut)
  onLine : ∀ e ∈ s.data.entries, OnLine e
  leads : Leads Misread softwareOptOut s.data.entries
  valid : checkValidOptOutModes (s.getValue softwareOptOut) = true

/-- The settings have a valid opt-out mode, whose entry leads exactly under the condition `C`. -/
structure Valid (C : Prop) (s : CSettings) : Prop where
  file : ∃ f, s.file = some f ∧ f.readable = true ∧ f.writable = true
  onLine : ∀ e ∈ s.data.entries, OnLine e
  leads : Leads Misread softwareOptOut s.data.entries ↔ C
  valid : checkValidOptOutModes (s.getValue softwareOptOut) = true

/-- The file is as `m_setting` has written it. -/
def Saved (s : CSettings) : Prop := ∃ f, s.file = some f ∧ f.content = writeLines s.data

theorem get?_softwareOptOut (h : checkValidOptOutModes (setting.getValue softwareOptOut) = true) :
    setting.data.get? softwareOptOut = some (setting.getValue softwareOptOut) := by
  unfold getValue at h ⊢
  rw [cStr_softwareOptOut] at h ⊢
  cases hget : setting.data.get? softwareOptOut with
  | some v => rfl
  | none =>
    rw [hget] at h
    exact absurd rfl (plain_of_valid h).1

variable {C : Prop}

theorem ReadAlike.toValid (h : ReadAlike setting) : Valid True setting := by
  obtain ⟨f, hf, hr, hw, -⟩ := h.file
  exact ⟨⟨f, hf, hr, hw⟩, h.onLine, iff_of_true h.leads trivial, h.valid⟩

theorem Valid.softwareOptOut_mem (h : Valid C setting) :
    softwareOptOut ∈ setting.data.entries.map Prod.fst :=
  List.mem_map_of_mem (get?_eq_some_iff.mp (get?_softwareOptOut h.valid))

/-- What has been written is read back when no misread key comes first, and only then. -/
theorem Valid.parseConfigFile_iff (h : Valid C setting) (hf : setting.file = some f)
    (hw : Saved setting) : parseConfigFile f.content softwareOptOut =
      some (setting.getValue softwareOptOut) ↔ C := by
  obtain ⟨f', hf', hcontent⟩ := hw
  obtain rfl := Option.some.inj (hf.symm.trans hf')
  rw [hcontent, ← h.leads]
  show (getFileContent (writeLines setting.data)).findSome? lineOptOut = _ ↔ _
  rw [getFileContent_writeLines h.onLine]
  constructor
  · exact leads_of_findSome?_writeLines h.softwareOptOut_mem (plain_of_valid h.valid).2.1
  · intro hlead
    refine findSome?_writeLines hlead (fun v hv => ?_) (plain_of_valid h.valid).1
    exact Option.some.inj ((get?_eq_some_iff.mpr hv).symm.trans (get?_softwareOptOut h.valid))

/-- Settings are read alike when they have been written. -/
theorem Valid.readAlike (h : Valid C setting) (hC : C) (hw : Saved setting) :
    ReadAlike setting := by
  obtain ⟨f, hf, hr, hwritable⟩ := h.file
  exact ⟨⟨f, hf, hr, hwritable, (h.parseConfigFile_iff hf hw).mpr hC⟩, h.onLine, h.leads.mpr hC,
    h.valid⟩

theorem saved_applyAll (ops : List SettingOp) (hf : setting.file = some f)
    (hw : f.writable = true) (hne : ops ≠ []) : Saved (setting.applyAll ops) :=
  ⟨_, applyAll_file hf hw hne, rfl⟩

/-- The settings after some of them have been written. -/
theorem Valid.applyAll {ops : List SettingOp} (h : Valid C setting) (hne : ops ≠ [])
    (hops : ∀ op ∈ ops, op.WellFormed)
    (hlead : Leads Misread softwareOptOut (setting.applyAll ops).data.entries ↔
      Leads Misread softwareOptOut setting.data.entries)
    (hvalid : checkValidOptOutModes ((setting.applyAll ops).getValue softwareOptOut) = true) :
    Valid C (setting.applyAll ops) := by
  obtain ⟨f, hf, hr, hw⟩ := h.file
  exact ⟨⟨_, applyAll_file hf hw hne, hr, hw⟩, applyAll_onLine h.onLine hops,
    hlead.trans h.leads, hvalid⟩

theorem not_misread_backgroundFlag : ¬ Misread (backgroundFlag, value) := by
  have hno : ¬ optOutPrefix <+: backgroundFlag := by decide
  exact fun h => hno h.1

theorem not_misread_softwareOptOut : ¬ Misread (softwareOptOut, value) := by
  have hno : ¬ optOutPrefix <+: softwareOptOut := by decide
  exact fun h => hno h.1

theorem softwareOptOut_key :
    softwareOptOut ≠ [] ∧ '=' ∉ softwareOptOut ∧ '\n' ∉ softwareOptOut := by
  decide

theorem backgroundFlag_key :
    backgroundFlag ≠ [] ∧ '=' ∉ backgroundFlag ∧ '\n' ∉ backgroundFlag := by
  decide

theorem newline_notMem_flagFor {mode : Text} : '\n' ∉ flagFor mode := by
  unfold flagFor
  split <;> decide

/-! ## What the calls keep -/

theorem Valid.changeMode (h : Valid C st.setting) {mode : Text} :
    Valid C (st.changeMode mode).setting := by
  have hne : backgroundFlag ≠ softwareOptOut := backgroundFlag_ne_softwareOptOut
  show Valid C
    (st.setting.applyAll [.remove backgroundFlag, .setValue backgroundFlag (flagFor mode)])
  refine h.applyAll (by simp) ?_ ?_ ?_
  · intro op hop
    simp only [List.mem_cons, List.not_mem_nil, or_false] at hop
    rcases hop with rfl | rfl
    · exact backgroundFlag_key
    · obtain ⟨hkey, hsep, hline⟩ := backgroundFlag_key
      exact ⟨hkey, hsep, hline, newline_notMem_flagFor⟩
  · show Leads Misread softwareOptOut ((st.setting.remove backgroundFlag).1.setValue
      backgroundFlag (flagFor mode)).1.data.entries ↔ _
    rw [replace_data cStr_backgroundFlag]
    exact (leads_putEntry_of_ne hne fun _ => not_misread_backgroundFlag).trans
      (leads_filter_ne hne fun _ => not_misread_backgroundFlag)
  · have hsame : (st.changeMode mode).setting.getValue softwareOptOut = _ :=
      changeMode_softwareOptOut
    exact (congrArg checkValidOptOutModes hsame).trans h.valid

theorem Valid.saved_changeMode (h : Valid C st.setting) {mode : Text} :
    Saved (st.changeMode mode).setting := by
  obtain ⟨f, hf, -, hw⟩ := h.file
  exact saved_applyAll [.remove backgroundFlag, .setValue backgroundFlag (flagFor mode)] hf hw
    (by simp)

/-- A mode that is stored stays at the place of the old one. -/
theorem Valid.storeOptOut (h : Valid C st.setting) (hvalid : checkValidOptOutModes value = true) :
    Valid C (st.storeOptOut value).setting := by
  show Valid C (st.setting.applyAll [.setValue softwareOptOut value])
  refine h.applyAll (by simp) ?_ ?_ ?_
  · intro op hop
    obtain rfl := List.mem_singleton.mp hop
    obtain ⟨hkey, hsep, hline⟩ := softwareOptOut_key
    exact ⟨hkey, hsep, hline, (plain_of_valid hvalid).2.2.1⟩
  · show Leads Misread softwareOptOut
      (st.setting.setValue softwareOptOut value).1.data.entries ↔ _
    rw [setValue_data, cStr_softwareOptOut]
    refine (leads_putEntry_iff fun w => iff_of_false not_misread_softwareOptOut
      not_misread_softwareOptOut).trans (or_iff_left_of_imp ?_)
    rintro ⟨-, hno⟩
    exact leads_of_mem_keys h.softwareOptOut_mem hno
  · have hstored : (st.storeOptOut value).setting.getValue softwareOptOut = value :=
      storeOptOut_softwareOptOut
    exact (congrArg checkValidOptOutModes hstored).trans hvalid

theorem Valid.saved_storeOptOut (h : Valid C st.setting) :
    Saved (st.storeOptOut value).setting := by
  obtain ⟨f, hf, -, hw⟩ := h.file
  exact saved_applyAll [.setValue softwareOptOut value] hf hw (by simp)

theorem ReadAlike.changeMode (h : ReadAlike st.setting) {mode : Text} :
    ReadAlike (st.changeMode mode).setting :=
  h.toValid.changeMode.readAlike trivial h.toValid.saved_changeMode

theorem ReadAlike.storeOptOut (h : ReadAlike st.setting)
    (hvalid : checkValidOptOutModes value = true) : ReadAlike (st.storeOptOut value).setting :=
  (h.toValid.storeOptOut hvalid).readAlike trivial h.toValid.saved_storeOptOut

/-- The plugin's mode is valid and its settings have a valid opt-out mode. -/
structure ValidMode (C : Prop) (st : ModeState) : Prop where
  mode : st.currentMode = backgroundMode ∨ st.currentMode = foregroundMode
  setting : Valid C st.setting

theorem ValidMode.readersAgree_iff_of_saved (h : ValidMode C st) (hw : Saved st.setting) :
    ReadersAgree st ↔ C := by
  obtain ⟨f, hf, hr, -⟩ := h.setting.file
  rw [readersAgree_iff h.mode hf hr, and_iff_right h.setting.valid]
  exact h.setting.parseConfigFile_iff hf hw

theorem ReadAlike.readersAgree (hmode : st.currentMode = backgroundMode ∨
    st.currentMode = foregroundMode) (h : ReadAlike st.setting) : ReadersAgree st := by
  obtain ⟨f, hf, hr, -, hparse⟩ := h.file
  exact (readersAgree_iff hmode hf hr).mpr ⟨h.valid, hparse⟩

variable {c : ModeCall} {cs : List ModeCall}

theorem ValidMode.call (h : ValidMode C st) :
    ValidMode C (setMaintenanceMode st c.1 c.2.1 c.2.2).1 := by
  refine setMaintenanceMode_invariant ?_ ?_ ?_ h
  · intro st trigger h
    exact ⟨h.mode, h.setting⟩
  · intro st mode hmode h
    exact ⟨hmode, h.setting.changeMode⟩
  · intro st value hvalid h
    exact ⟨h.mode, h.setting.storeOptOut hvalid⟩

/-- What has been written by one call stays as `m_setting` writes it. -/
theorem ValidMode.saved_call_of_saved (h : ValidMode C st) (hw : Saved st.setting) :
    Saved (setMaintenanceMode st c.1 c.2.1 c.2.2).1.setting := by
  have hboth : ValidMode C (setMaintenanceMode st c.1 c.2.1 c.2.2).1 ∧
      Saved (setMaintenanceMode st c.1 c.2.1 c.2.2).1.setting := by
    refine setMaintenanceMode_invariant (I := fun st => ValidMode C st ∧ Saved st.setting)
      ?_ ?_ ?_ ⟨h, hw⟩
    · rintro st trigger ⟨h, hw⟩
      exact ⟨⟨h.mode, h.setting⟩, hw⟩
    · rintro st mode hmode ⟨h, -⟩
      exact ⟨⟨hmode, h.setting.changeMode⟩, h.setting.saved_changeMode⟩
    · rintro st value hvalid ⟨h, -⟩
      exact ⟨⟨h.mode, h.setting.storeOptOut hvalid⟩, h.setting.saved_storeOptOut⟩
  exact hboth.2

/-- What a call that writes has for parameters. -/
theorem ModeCall.writes_iff : c.writes = true ↔ ∃ newMode newOptOut,
    c.2.2.get? "maintenanceMode".toList = some newMode ∧
      c.2.2.get? "optOut".toList = some newOptOut ∧
      (newMode = backgroundMode ∨ newMode = foregroundMode) ∧
      (c.1 ≠ .started ∨ c.2.1 = true ∨ checkValidOptOutModes newOptOut = true) := by
  unfold ModeCall.writes
  cases hmode : c.2.2.get? "maintenanceMode".toList with
  | none => simp
  | some newMode =>
    cases hopt : c.2.2.get? "optOut".toList with
    | none => simp
    | some newOptOut => simp [or_assoc]

/-- A call that writes leaves the file as `m_setting` writes it. -/
theorem ValidMode.saved_call (h : ValidMode C st) (hc : c.writes = true) :
    Saved (setMaintenanceMode st c.1 c.2.1 c.2.2).1.setting := by
  obtain ⟨newMode, newOptOut, hmode, hopt, hvalidMode, hwrites⟩ := ModeCall.writes_iff.mp hc
  have hinvalid : ¬ (newMode ≠ backgroundMode ∧ newMode ≠ foregroundMode) :=
    not_and_or.mpr (hvalidMode.imp not_not.mpr not_not.mpr)
  unfold setMaintenanceMode
  rw [hmode, hopt]
  simp only [hinvalid, if_false]
  unfold ModeState.updateMode
  by_cases hstatus : c.1 = .started
  · by_cases hbroadcast : c.2.1 = true
    · simp only [hstatus, hbroadcast, ne_eq, not_true, if_false, if_true]
      split
      · exact h.setting.changeMode.saved_storeOptOut
      · exact h.setting.saved_changeMode
    · have hvalid : checkValidOptOutModes newOptOut = true :=
        (hwrites.resolve_left (not_not.mpr hstatus)).resolve_left hbroadcast
      simp only [hstatus, hbroadcast, hvalid, ne_eq, not_true, if_false, if_true]
      exact h.setting.saved_storeOptOut
  · simp only [hstatus, ne_eq, not_false_eq_true, if_true]
    split
    · exact h.setting.changeMode.saved_storeOptOut
    · exact h.setting.saved_changeMode

/-- A call that does not write changes the trigger at most. -/
theorem call_of_not_writes (st : ModeState) (hc : ¬ c.writes = true) : ∃ trigger,
    (setMaintenanceMode st c.1 c.2.1 c.2.2).1 = { st with triggerMode := trigger } := by
  rw [ModeCall.writes_iff] at hc
  unfold setMaintenanceMode
  cases hmode : c.2.2.get? "maintenanceMode".toList with
  | none => exact ⟨st.triggerMode, rfl⟩
  | some newMode =>
    cases hopt : c.2.2.get? "optOut".toList with
    | none => exact ⟨st.triggerMode, rfl⟩
    | some newOptOut =>
      by_cases hinvalid : newMode ≠ backgroundMode ∧ newMode ≠ foregroundMode
      · dsimp only
        rw [if_pos hinvalid]
        exact ⟨st.triggerMode, rfl⟩
      · have hvalidMode : newMode = backgroundMode ∨ newMode = foregroundMode :=
          (not_and_or.mp hinvalid).imp not_not.mp not_not.mp
        obtain ⟨hstatus, hquiet⟩ : c.1 = .started ∧
            ¬ (c.2.1 = true ∨ checkValidOptOutModes newOptOut = true) := by
          by_contra hno
          refine hc ⟨newMode, newOptOut, hmode, hopt, hvalidMode, ?_⟩
          exact (not_and_or.mp hno).imp_right not_not.mp
        obtain ⟨hbroadcast, hinvalidOptOut⟩ := not_or.mp hquiet
        unfold ModeState.updateMode
        simp only [hinvalid, hstatus, hbroadcast, hinvalidOptOut, ne_eq, not_true, if_false]
        exact ⟨_, rfl⟩

theorem ValidMode.calls (h : ValidMode C st) (hw : Saved st.setting) (cs : List ModeCall) :
    ValidMode C (st.calls cs) ∧ Saved (st.calls cs).setting := by
  induction cs generalizing st with
  | nil => exact ⟨h, hw⟩
  | cons c cs ih => exact ih h.call (h.saved_call_of_saved hw)

/-- As soon as one of the calls writes, the readers agree under the condition. -/
theorem ValidMode.readersAgree_calls (h : ValidMode C st)
    (hcs : cs.any ModeCall.writes = true) : ReadersAgree (st.calls cs) ↔ C := by
  induction cs generalizing st with
  | nil => cases hcs
  | cons c cs ih =>
    cases hc : c.writes with
    | true =>
      obtain ⟨hvalid, hw⟩ := h.call.calls (h.saved_call hc) cs
      exact hvalid.readersAgree_iff_of_saved hw
    | false =>
      rw [List.any_cons, hc, Bool.false_or] at hcs
      exact ih h.call hcs

theorem readersAgree_trigger {trigger : Text} :
    ReadersAgree { st with triggerMode := trigger } ↔ ReadersAgree st := by
  have hresponse : (getMaintenanceMode { st with triggerMode := trigger }).success =
        (getMaintenanceMode st).success ∧
      (getMaintenanceMode { st with triggerMode := trigger }).optOut =
        (getMaintenanceMode st).optOut := by
    unfold getMaintenanceMode
    split
    · exact ⟨rfl, rfl⟩
    · dsimp only
      cases readOptOut st.setting.file <;> exact ⟨rfl, rfl⟩
  obtain ⟨hsuccess, hoptOut⟩ := hresponse
  constructor
  · intro h
    exact ⟨hsuccess ▸ h.success, hoptOut ▸ h.optOut, h.valid⟩
  · intro h
    exact ⟨hsuccess.trans h.success, hoptOut.trans h.optOut, h.valid⟩

/-- Without such a call the readers stay as they are. -/
theorem readersAgree_calls_of_not_writes (hcs : cs.any ModeCall.writes = false) :
    ReadersAgree (st.calls cs) ↔ ReadersAgree st := by
  induction cs generalizing st with
  | nil => exact Iff.rfl
  | cons c cs ih =>
    rw [List.any_cons, Bool.or_eq_false_iff] at hcs
    obtain ⟨trigger, htrigger⟩ := call_of_not_writes st (Bool.not_eq_true _ ▸ hcs.1)
    show ReadersAgree ((setMaintenanceMode st c.1 c.2.1 c.2.2).1.calls cs) ↔ _
    rw [ih hcs.2, htrigger, readersAgree_trigger]

/-! ## The lines of the file -/

variable {ls : List Text} {key : Text}

theorem lineSetting_eq_some_iff : lineSetting l = some (key, value) ↔ Sets l key value := by
  unfold lineSetting Sets
  rw [Option.map_eq_some_iff]
  constructor
  · rintro ⟨⟨text, v⟩, hsplit, heq⟩
    cases heq
    obtain ⟨hl, hsep⟩ := splitAtLast_eq_some_iff.mp hsplit
    exact ⟨text, hl, hsep, rfl⟩
  · rintro ⟨text, hl, hsep, rfl⟩
    exact ⟨(text, value), splitAtLast_eq_some_iff.mpr ⟨hl, hsep⟩, rfl⟩

theorem lastSets_concat : LastSets (ls ++ [l]) key value ↔
    Sets l key value ∨ (∀ value', ¬ Sets l key value') ∧ LastSets ls key value := by
  constructor
  · rintro ⟨before, l', behind, heq, hset, hlast⟩
    rcases List.eq_nil_or_concat behind with rfl | ⟨behind, l'', rfl⟩
    · obtain ⟨-, hl⟩ := List.append_inj' heq rfl
      cases hl
      exact .inl hset
    · rw [List.concat_eq_append] at heq hlast
      have hsplit : ls ++ [l] = (before ++ l' :: behind) ++ [l''] := by simpa using heq
      obtain ⟨rfl, hl⟩ := List.append_inj' hsplit rfl
      cases hl
      exact .inr ⟨hlast l (by simp), before, l', behind, rfl, hset,
        fun l'' hl'' => hlast l'' (List.mem_append_left _ hl'')⟩
  · rintro (hset | ⟨hno, before, l', behind, rfl, hset, hlast⟩)
    · exact ⟨ls, l, [], rfl, hset, fun l' hl' => by cases hl'⟩
    · refine ⟨before, l', behind ++ [l], by simp, hset, fun l'' hl'' => ?_⟩
      rcases List.mem_append.mp hl'' with hl'' | hl''
      · exact hlast l'' hl''
      · obtain rfl := List.mem_singleton.mp hl''
        exact hno

/-- A key that is loaded has the value of the last line that sets it. -/
theorem get?_lines : (OrderedMap.empty.setAll (ls.filterMap lineSetting)).get? key = some value ↔
    LastSets ls key value := by
  induction ls using List.reverseRecOn with
  | nil =>
    constructor
    · intro h
      cases h
    · rintro ⟨before, l, behind, heq, -⟩
      simp at heq
  | append_singleton ls l ih =>
    rw [lastSets_concat, ← ih, List.filterMap_append, setAll_append]
    cases hl : lineSetting l with
    | none =>
      have hno (value' : Text) : ¬ Sets l key value' := by
        rw [← lineSetting_eq_some_iff, hl]
        exact Option.some_ne_none _ ∘ Eq.symm
      simp [hl, hno, setAll]
    | some e =>
      obtain ⟨key', value'⟩ := e
      simp only [← lineSetting_eq_some_iff, hl, List.filterMap_cons, List.filterMap_nil, setAll,
        List.foldl_cons, List.foldl_nil, Option.some.injEq, Prod.mk.injEq]
      by_cases hkey : key' = key
      · subst hkey
        simp
      · rw [get?_set_of_ne (Ne.symm hkey)]
        simp [hkey]

theorem getFileContent_find? {p : Text → Bool} (hp : p [] = false) :
    (getFileContent content).find? p = (content.splitOn '\n').find? p := by
  unfold getFileContent
  rw [List.find?_filter]
  refine congrArg (fun q => List.find? q (content.splitOn '\n')) (funext fun l => ?_)
  by_cases hl : l = []
  · simp [hl, hp]
  · simp [hl]

/-! ## Boot-up -/

/-- The store that is loaded from a file with this content. -/
def loaded (content : Text) : CSettings := CSettings.create (some ⟨content, true, true⟩) false

/-- The opt-out mode that `m_setting` finds in the file. -/
def loadedOptOut (content : Text) : Text := (loaded content).getValue softwareOptOut

theorem loaded_file : (loaded content).file = some ⟨content, true, true⟩ := rfl

theorem loaded_data : (loaded content).data =
    OrderedMap.empty.setAll ((content.splitOn '\n').filterMap lineSetting) := readLines_eq_setAll

theorem loaded_onLine : ∀ e ∈ (loaded content).data.entries, OnLine e :=
  fun e he => (readLines_onLine e he).1

/-- The file has the mode that `m_setting` finds when that is valid. -/
theorem hasMode_iff : HasMode (content.splitOn '\n') value ↔
    checkValidOptOutModes (loadedOptOut content) = true ∧ value = loadedOptOut content := by
  unfold HasMode
  rw [← get?_lines, ← loaded_data]
  constructor
  · rintro ⟨hvalid, hget⟩
    have hvalue : loadedOptOut content = value := by
      rw [loadedOptOut, getValue, cStr_softwareOptOut, hget]
      rfl
    exact ⟨hvalue ▸ hvalid, hvalue.symm⟩
  · rintro ⟨hvalid, rfl⟩
    exact ⟨hvalid, get?_softwareOptOut hvalid⟩

/-- The misread keys of the lines are those of the misread entries. -/
theorem misread_iff_misreadKey {e : Text × Text} (he : e ∈ (loaded content).data.entries) :
    Misread e ↔ MisreadKey (content.splitOn '\n') e.1 := by
  obtain ⟨key, v⟩ := e
  rw [← get?_eq_some_iff] at he
  unfold MisreadKey
  simp only [← get?_lines, ← loaded_data, he, Option.some.injEq, exists_eq_right', Misread]

theorem forall_not_misread_iff : (∀ e ∈ (loaded content).data.entries, ¬ Misread e) ↔
    ∀ key, ¬ MisreadKey (content.splitOn '\n') key := by
  constructor
  · intro h key hkey
    obtain ⟨hbegins, value, hne, hlast⟩ := hkey
    rw [← get?_lines, ← loaded_data, get?_eq_some_iff] at hlast
    exact h _ hlast ⟨hbegins, hne⟩
  · intro h e he hmis
    exact h e.1 ((misread_iff_misreadKey he).mp hmis)

theorem leads_loaded_iff : Leads Misread softwareOptOut (loaded content).data.entries ↔
    Foremost (content.splitOn '\n') := by
  rw [leads_congr fun e he => misread_iff_misreadKey he, loaded_data, leads_setAll_iff]
  unfold Foremost
  constructor
  · rintro ⟨before, v, behind, heq, hbefore⟩
    obtain ⟨ls₁, ls₂, hls, hls₁, hls₂⟩ := List.filterMap_eq_append_iff.mp heq
    obtain ⟨ls₃, l, ls₄, rfl, hls₃, hl, -⟩ := List.filterMap_eq_cons_iff.mp hls₂
    refine ⟨ls₁ ++ ls₃, l, ls₄, by simp [hls], ⟨v, lineSetting_eq_some_iff.mp hl⟩, ?_⟩
    intro l' hl' key value hset
    rw [← lineSetting_eq_some_iff] at hset
    rcases List.mem_append.mp hl' with hl' | hl'
    · exact hbefore (key, value) (hls₁ ▸ List.mem_filterMap.mpr ⟨l', hl', hset⟩)
    · rw [hls₃ l' hl'] at hset
      cases hset
  · rintro ⟨before, l, behind, hls, ⟨v, hl⟩, hbefore⟩
    rw [hls, List.filterMap_append, List.filterMap_cons, lineSetting_eq_some_iff.mpr hl, ← hls]
    refine ⟨_, v, _, rfl, fun e he => ?_⟩
    obtain ⟨l', hl', hset⟩ := List.mem_filterMap.mp he
    exact hbefore l' hl' e.1 e.2 (lineSetting_eq_some_iff.mp hset)

/-- After a boot-up that found a valid opt-out mode nothing has been written. -/
theorem onBootup_of_valid (h : checkValidOptOutModes (loadedOptOut content) = true) :
    ModeState.maintenanceManagerOnBootup (loaded content) =
      ⟨foregroundMode, [], loaded content⟩ := by
  have hvalid : checkValidOptOutModes ((loaded content).getValue softwareOptOut) = true := h
  unfold ModeState.maintenanceManagerOnBootup
  rw [if_pos hvalid]

/-- After a boot-up that found none, the mode NONE has been written. -/
theorem onBootup_of_not_valid (h : checkValidOptOutModes (loadedOptOut content) = false) :
    ModeState.maintenanceManagerOnBootup (loaded content) = ⟨foregroundMode, [],
      (loaded content).applyAll
        [.remove softwareOptOut, .setValue softwareOptOut "NONE".toList]⟩ := by
  have hvalid : ¬ checkValidOptOutModes ((loaded content).getValue softwareOptOut) = true := by
    rw [Bool.not_eq_true]
    exact h
  unfold ModeState.maintenanceManagerOnBootup
  rw [if_neg hvalid]
  rfl

theorem optOut_wellFormed : ∀ op ∈ [SettingOp.remove softwareOptOut,
    .setValue softwareOptOut "NONE".toList], op.WellFormed := by
  intro op hop
  simp only [List.mem_cons, List.not_mem_nil, or_false] at hop
  obtain ⟨hkey, hsep, hline⟩ := softwareOptOut_key
  rcases hop with rfl | rfl
  · exact ⟨hkey, hsep, hline⟩
  · exact ⟨hkey, hsep, hline, (plain_of_valid valid_none).2.2.1⟩

theorem validMode_of_valid (h : checkValidOptOutModes (loadedOptOut content) = true) :
    ValidMode (Foremost (content.splitOn '\n')) (.maintenanceManagerOnBootup (loaded content)) := by
  rw [onBootup_of_valid h]
  exact ⟨.inr rfl, ⟨_, loaded_file, rfl, rfl⟩, loaded_onLine, leads_loaded_iff, h⟩

/-- The mode that boot-up stores comes behind all other settings. -/
theorem leads_onBootup_iff : Leads Misread softwareOptOut ((loaded content).applyAll
      [.remove softwareOptOut, .setValue softwareOptOut "NONE".toList]).data.entries ↔
    ∀ key, ¬ MisreadKey (content.splitOn '\n') key := by
  show Leads Misread softwareOptOut (((loaded content).remove softwareOptOut).1.setValue
    softwareOptOut "NONE".toList).1.data.entries ↔ _
  rw [replace_data cStr_softwareOptOut]
  refine (leads_putEntry_iff fun w => iff_of_false not_misread_softwareOptOut
    not_misread_softwareOptOut).trans ?_
  rw [← forall_not_misread_iff]
  constructor
  · rintro (hlead | ⟨-, hno⟩) e he
    · obtain ⟨e', he', hkey⟩ := List.mem_map.mp hlead.mem_keys
      exact absurd hkey (by simpa using (List.mem_filter.mp he').2)
    · by_cases hkey : e.1 = softwareOptOut
      · obtain ⟨key, v⟩ := e
        obtain rfl : key = softwareOptOut := hkey
        exact not_misread_softwareOptOut
      · exact hno e (List.mem_filter.mpr ⟨he, by simpa using hkey⟩)
  · intro hno
    exact .inr ⟨rfl, fun e he => hno e (List.mem_of_mem_filter he)⟩

theorem validMode_of_not_valid (h : checkValidOptOutModes (loadedOptOut content) = false) :
    ValidMode (∀ key, ¬ MisreadKey (content.splitOn '\n') key)
        (.maintenanceManagerOnBootup (loaded content)) ∧
      Saved (ModeState.maintenanceManagerOnBootup (loaded content)).setting := by
  rw [onBootup_of_not_valid h]
  refine ⟨⟨.inr rfl, ⟨_, applyAll_file loaded_file rfl (by simp), rfl, rfl⟩,
    applyAll_onLine loaded_onLine optOut_wellFormed, leads_onBootup_iff, ?_⟩,
    saved_applyAll _ loaded_file rfl (by simp)⟩
  exact (congrArg checkValidOptOutModes getValue_setValue_self).trans valid_none

/-- What `parseConfigFile` finds in the file that has been loaded. -/
theorem parseConfigFile_loaded : parseConfigFile content softwareOptOut = some value ↔
    (content.splitOn '\n').find? (fun l => optOutPrefix.isPrefixOf l) =
      some (optOutPrefix ++ value) := by
  rw [parseConfigFile_eq_some_iff, getFileContent_find? (by decide)]

theorem readersAgree_onBootup (h : checkValidOptOutModes (loadedOptOut content) = true) :
    ReadersAgree (.maintenanceManagerOnBootup (loaded content)) ↔
      (content.splitOn '\n').find? (fun l => optOutPrefix.isPrefixOf l) =
        some (optOutPrefix ++ loadedOptOut content) := by
  rw [onBootup_of_valid h, readersAgree_iff (.inr rfl) loaded_file rfl, ← parseConfigFile_loaded]
  exact and_iff_right h

/-- The first line with the prefix comes before all misread keys when it sets `softwareoptout`. -/
theorem foremost_of_find? (hvalue : '=' ∉ value)
    (h : ls.find? (fun l => optOutPrefix.isPrefixOf l) = some (optOutPrefix ++ value)) :
    Foremost ls := by
  obtain ⟨-, before, behind, hls, hbefore⟩ := List.find?_eq_some_iff_append.mp h
  refine ⟨before, _, behind, hls, ⟨value, softwareOptOut, ?_, hvalue, cStr_softwareOptOut⟩, ?_⟩
  · simp [optOutPrefix]
  · rintro l hl key v ⟨text, rfl, -, rfl⟩ ⟨hbegins, -⟩
    have hprefix : optOutPrefix <+: text ++ '=' :: v :=
      (hbegins.trans (List.takeWhile_prefix _)).trans (List.prefix_append _ _)
    have hno := hbefore _ hl
    simp [List.isPrefixOf_iff_prefix.mpr hprefix] at hno

theorem readAlike_loaded (hvalid : checkValidOptOutModes (loadedOptOut content) = true)
    (h : parseConfigFile content softwareOptOut = some (loadedOptOut content)) :
    ReadAlike (loaded content) := by
  refine ⟨⟨_, loaded_file, rfl, rfl, h⟩, loaded_onLine, leads_loaded_iff.mpr ?_, hvalid⟩
  exact foremost_of_find? (plain_of_valid hvalid).2.1 (parseConfigFile_loaded.mp h)

/-- Right after boot-up the settings are read alike when the file has one opt-out mode. -/
theorem readAlike_onBootup (h : OneOptOut content []) :
    ReadAlike (ModeState.maintenanceManagerOnBootup (loaded content)).setting := by
  unfold OneOptOut at h
  simp only [hasMode_iff] at h
  cases hvalid : checkValidOptOutModes (loadedOptOut content) with
  | true =>
    rw [onBootup_of_valid hvalid]
    refine readAlike_loaded hvalid (parseConfigFile_loaded.mpr ?_)
    simpa [hvalid] using h
  | false =>
    obtain ⟨hboot, hw⟩ := validMode_of_not_valid hvalid
    exact hboot.setting.readAlike (by simpa [hvalid] using h) hw

/-- After boot-up and any calls the readers agree exactly when the file has one opt-out mode. -/
theorem readersAgree_calls_iff (content : Text) (cs : List ModeCall) :
    ReadersAgree ((ModeState.maintenanceManagerOnBootup
      (CSettings.create (some ⟨content, true, true⟩) false)).calls cs) ↔ OneOptOut content cs := by
  show ReadersAgree ((ModeState.maintenanceManagerOnBootup (loaded content)).calls cs) ↔ _
  unfold OneOptOut
  simp only [hasMode_iff]
  cases hvalid : checkValidOptOutModes (loadedOptOut content) with
  | true =>
    cases hcs : cs.any ModeCall.writes with
    | true =>
      rw [(validMode_of_valid hvalid).readersAgree_calls hcs]
      simp
    | false =>
      rw [readersAgree_calls_of_not_writes hcs, readersAgree_onBootup hvalid]
      simp
  | false =>
    obtain ⟨h, hw⟩ := validMode_of_not_valid hvalid
    obtain ⟨hcalls, hwCalls⟩ := h.calls hw cs
    rw [hcalls.readersAgree_iff_of_saved hwCalls]
    simp

/-- Of two lines with valid modes each reader takes another one. -/
theorem not_readersAgree_twoLines : ∃ content cs, ¬ ReadersAgree
    ((ModeState.maintenanceManagerOnBootup
      (CSettings.create (some ⟨content, true, true⟩) false)).calls cs) := by
  refine ⟨"softwareoptout=IGNORE_UPDATE\nsoftwareoptout=NONE\n".toList, [], fun h => ?_⟩
  have hopt := h.optOut
  revert hopt
  decide

end SoftwareUpdate.MaintenanceManager
