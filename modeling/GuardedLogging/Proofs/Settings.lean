import GuardedLogging.Proofs.CompilationUnit.Documents
import GuardedLogging.Proofs.General.Texts
import GuardedLogging.Proofs.Token.Numbers
import GuardedLogging.Settings

/-!
# What settings a document may give

A document is refused where its keys, its class path or its switch for simple arguments are not what they have to be, and for nothing else. The log level is made a text of whatever is given, and that text is never empty. The log file alone is not looked at: it is passed on as it is given, so the settings can hold something that names no file.
-/

namespace GuardedLogging

/-! ### Running text -/

theorem FloatLayout.magnitude_ne_empty (layout : FloatLayout) (significand : Nat) (exponent : Int) :
    layout.magnitude significand exponent ≠ "" := by
  intro hempty
  have hcases := layout.isNumeral_or_hasExponentSign significand exponent
  rw [hempty] at hcases
  rcases hcases with hnumeral | ⟨mantissa, sign, size, _, _, htext⟩
  · generalize htext : "".toList = text at hnumeral
    cases hnumeral with
    | whole hne _ => exact hne htext.symm
    | fraction _ _ _ => simp at htext
  · simp at htext

theorem Scalar.plain_ne_empty {value : Scalar} (h : value.isTrue = true) : value.plain ≠ "" := by
  cases value with
  | null => cases h
  | bool value =>
    cases value with
    | false => cases h
    | true => decide
  | int value => exact toString_ne_empty value
  | real value =>
    cases value with
    | finite negative significand exponent =>
      exact append_ne_empty (realLayout.magnitude_ne_empty significand exponent)
    | infinite negative => exact append_ne_empty (by decide)
    | nan => decide
  | text value =>
    rintro rfl
    cases h

theorem Document.plain_ne_empty {document : Document} (h : document.isTrue = true) : document.plain ≠ "" := by
  cases document with
  | scalar value => exact value.plain_ne_empty h
  | list items => exact append_ne_empty (by decide)
  | mapping entries => exact append_ne_empty (by decide)
  | foreign value => exact value.plain_ne_empty

/-! ### What is looked at -/

namespace Document

/-- The document, if it is a mapping, names its entries with texts. -/
def HasTextKeys : Document → Prop
  | mapping entries => ∀ entry ∈ entries, entry.1.isText = true
  | _ => True

/-- The document is null or a text. -/
def IsNullOrText (document : Document) : Prop := document = .null ∨ ∃ text, document = .text text

/-- The document is a list of texts. -/
def IsTextList (document : Document) : Prop := ∃ texts : List String, document = .list (texts.map .text)

end Document

namespace Settings

variable {entries : List (Document.Key × Document)}

/-- The value of a key, which is null if the key is missing. -/
def given (entries : List (Document.Key × Document)) (key : String) : Document :=
  (Document.lookup entries key).getD .null

/-- The entries have what is looked at: known keys, a class path of texts or none at all, and a truth value if anything says whether simple arguments count. -/
structure HaveWhatIsChecked (entries : List (Document.Key × Document)) : Prop where
  keys : ∀ entry ∈ entries, ∃ key ∈ knownKeys, entry.1 = .text key
  classPath : (given entries "classpath").isTrue = true → (given entries "classpath").IsTextList
  skipSimple : ∀ value, Document.lookup entries "skip_simple_arguments" = some value → ∃ skip, value = .bool skip

/-- The document says nothing, or its entries have what is looked at. -/
def IsAcceptable : Document → Prop
  | .scalar .null => True
  | .mapping entries => HaveWhatIsChecked entries
  | _ => False

/-- Each part has its declared type: the log level is a text that is not empty, and the log file is null or a text. -/
structure IsTyped (settings : Settings) : Prop where
  logLevel : settings.logLevel ≠ ""
  logFile : settings.logFile.IsNullOrText

end Settings

namespace SettingsError

/-- The document is to blame: it is no mapping, or a key or a value in it is not what it has to be. -/
def BlamesDocument : SettingsError → Prop
  | notAMapping | unknownKeys _ | classPath | skipSimple => True
  | unorderedKeys | file _ _ | yaml _ _ | encoding _ _ => False

end SettingsError

/-! ### What each part is refused for -/

namespace Settings

variable {entries : List (Document.Key × Document)}

/-- The keys that no part of the settings has. -/
def unknown (entries : List (Document.Key × Document)) : List Document.Key :=
  (entries.map (·.1)).filter fun key => !key.text?.any knownKeys.contains

theorem unknown_eq_nil_iff :
    unknown entries = [] ↔ ∀ entry ∈ entries, ∃ key ∈ knownKeys, entry.1 = .text key := by
  have hknown (key : Document.Key) :
      key.text?.any knownKeys.contains = true ↔ ∃ name ∈ knownKeys, key = .text name := by
    cases key with
    | scalar value => cases value <;> simp [Document.Key.text?, Scalar.text?]
    | foreign value => simp [Document.Key.text?]
  simp only [unknown, List.filter_eq_nil_iff, List.forall_mem_map, Bool.not_eq_true', Bool.not_eq_false, hknown]

theorem checkKeys_eq_ok_iff :
    checkKeys entries = .ok () ↔ ∀ entry ∈ entries, ∃ key ∈ knownKeys, entry.1 = .text key := by
  rw [← unknown_eq_nil_iff]
  unfold checkKeys unknown
  simp only
  split
  · rename_i hnone
    exact ⟨fun _ => hnone, fun _ => rfl⟩
  · rename_i hsome
    exact ⟨nofun, fun hnone => (hsome hnone).elim⟩
  · rename_i hsome
    exact ⟨nofun, fun hnone => (hsome hnone).elim⟩

theorem exists_orderKeys?_eq {keys : List Document.Key} (h : ∀ key ∈ keys, key.isText = true) :
    ∃ ordered, orderKeys? keys = some ordered := by
  have htexts : ∀ left right : Document.Key, left.isText = true → right.isText = true →
      (left.isLess? right).isSome = true := by
    intro left right hleft hright
    match left, right with
    | .text _, .text _ => rfl
  have hordered : (keys.all fun left => keys.all fun right => (left.isLess? right).isSome) = true :=
    List.all_eq_true.mpr fun left hleft => List.all_eq_true.mpr fun right hright =>
      htexts left right (h left hleft) (h right hright)
  unfold orderKeys?
  simp only [hordered, Bool.or_true, if_true]
  exact ⟨_, rfl⟩

theorem blamesDocument_of_checkKeys (h : (Document.mapping entries).HasTextKeys) {error : SettingsError}
    (herror : checkKeys entries = .error error) : error.BlamesDocument := by
  have htexts : ∀ key ∈ unknown entries, key.isText = true := by
    intro key hkey
    obtain ⟨entry, hentry, rfl⟩ := List.mem_map.mp (List.mem_filter.mp hkey).1
    exact h entry hentry
  obtain ⟨ordered, hordered⟩ := exists_orderKeys?_eq htexts
  unfold checkKeys at herror
  unfold unknown at hordered
  simp only at herror
  split at herror
  · cases herror
  · cases herror
    trivial
  · rename_i hunordered _
    rw [hordered] at hunordered
    cases hunordered

/-- Items that are told to be texts one by one are told to be a list of texts together. -/
theorem mapM_eq_some_iff {text? : Document → Option String}
    (h : ∀ item name, text? item = some name ↔ item = .text name) {items : List Document} {names : List String} :
    items.mapM text? = some names ↔ items = names.map .text := by
  induction items generalizing names with
  | nil => cases names <;> simp
  | cons item rest ih =>
    rw [List.mapM_cons, Option.bind_eq_bind, Option.bind_eq_some_iff]
    constructor
    · rintro ⟨name, hname, hrest⟩
      obtain ⟨others, hothers, hall⟩ := Option.bind_eq_some_iff.mp hrest
      cases hall
      rw [(h item name).mp hname, ih.mp hothers, List.map_cons]
    · intro hitems
      cases names with
      | nil => cases hitems
      | cons name others =>
        obtain ⟨hitem, hrest⟩ := List.cons.inj hitems
        exact ⟨name, (h item name).mpr hitem, Option.bind_eq_some_iff.mpr ⟨others, ih.mpr hrest, rfl⟩⟩

theorem readClassPath_eq_ok_iff :
    (∃ names, readClassPath entries = .ok names) ↔
      ((given entries "classpath").isTrue = true → (given entries "classpath").IsTextList) := by
  unfold readClassPath given
  simp only
  generalize (Document.lookup entries "classpath").getD .null = value
  split
  · rename_i hfalse
    exact ⟨fun _ htrue => absurd htrue (by simpa using hfalse), fun _ => ⟨[], rfl⟩⟩
  · rename_i htrue
    rw [forall_prop_of_true (by simpa using htrue)]
    split
    · rename_i items
      split
      · rename_i names hnames
        have hitems := (mapM_eq_some_iff fun item name => by split <;> simp_all).mp hnames
        exact ⟨fun _ => ⟨names, congrArg Document.list hitems⟩, fun _ => ⟨names, rfl⟩⟩
      · rename_i hnone
        refine ⟨nofun, ?_⟩
        rintro ⟨names, hlist⟩
        exact (Option.eq_none_iff_forall_ne_some.mp hnone names
          ((mapM_eq_some_iff fun item name => by split <;> simp_all).mpr (Document.list.inj hlist))).elim
    · rename_i hother
      refine ⟨nofun, ?_⟩
      rintro ⟨names, rfl⟩
      exact (hother _ rfl).elim

theorem readSkipSimple_eq_ok_iff :
    (∃ skip, readSkipSimple entries = .ok skip) ↔
      ∀ value, Document.lookup entries "skip_simple_arguments" = some value → ∃ skip, value = .bool skip := by
  unfold readSkipSimple
  split
  · rename_i hnone
    rw [hnone]
    exact ⟨fun _ => nofun, fun _ => ⟨false, rfl⟩⟩
  · rename_i skip hskip
    rw [hskip]
    exact ⟨fun _ value hvalue => ⟨skip, (Option.some.inj hvalue).symm⟩, fun _ => ⟨skip, rfl⟩⟩
  · rename_i value hother hvalue
    rw [hvalue]
    refine ⟨nofun, fun hbool => ?_⟩
    obtain ⟨skip, rfl⟩ := hbool value rfl
    exact (hother skip rfl).elim

theorem blamesDocument_of_readClassPath {error : SettingsError} (h : readClassPath entries = .error error) :
    error.BlamesDocument := by
  unfold readClassPath at h
  simp only at h
  repeat' split at h
  all_goals cases h
  all_goals trivial

theorem blamesDocument_of_readSkipSimple {error : SettingsError} (h : readSkipSimple entries = .error error) :
    error.BlamesDocument := by
  unfold readSkipSimple at h
  split at h
  all_goals cases h
  trivial

theorem readLogLevel_ne_empty (entries : List (Document.Key × Document)) : readLogLevel entries ≠ "" := by
  unfold readLogLevel
  simp only
  split
  · rename_i htrue
    exact Document.plain_ne_empty htrue
  · decide

/-! ### The whole -/

theorem ofDocument_mapping :
    ofDocument (.mapping entries) = (do
      checkKeys entries
      let classPath ← readClassPath entries
      let skipSimple ← readSkipSimple entries
      return { classPath, skipSimple, logLevel := readLogLevel entries, logFile := given entries "log_file" }) := by
  rw [ofDocument]
  rfl

theorem ofDocument_mapping_eq_ok_iff {settings : Settings} :
    ofDocument (.mapping entries) = .ok settings ↔
      checkKeys entries = .ok () ∧ readClassPath entries = .ok settings.classPath ∧
        readSkipSimple entries = .ok settings.skipSimple ∧
        settings.logLevel = readLogLevel entries ∧ settings.logFile = given entries "log_file" := by
  rw [ofDocument_mapping]
  simp only [bind_eq_ok_iff]
  constructor
  · rintro ⟨_, hkeys, classPath, hclassPath, skipSimple, hskipSimple, hsettings⟩
    cases hsettings
    exact ⟨hkeys, hclassPath, hskipSimple, rfl, rfl⟩
  · rintro ⟨hkeys, hclassPath, hskipSimple, hlogLevel, hlogFile⟩
    obtain ⟨classPath, skipSimple, logLevel, logFile⟩ := settings
    cases hlogLevel
    cases hlogFile
    exact ⟨(), hkeys, classPath, hclassPath, skipSimple, hskipSimple, rfl⟩

theorem exists_ofDocument_mapping_iff :
    (∃ settings, ofDocument (.mapping entries) = .ok settings) ↔ HaveWhatIsChecked entries := by
  constructor
  · rintro ⟨settings, h⟩
    obtain ⟨hkeys, hclassPath, hskipSimple, _⟩ := ofDocument_mapping_eq_ok_iff.mp h
    exact ⟨checkKeys_eq_ok_iff.mp hkeys, readClassPath_eq_ok_iff.mp ⟨_, hclassPath⟩,
      readSkipSimple_eq_ok_iff.mp ⟨_, hskipSimple⟩⟩
  · rintro ⟨hkeys, hclassPath, hskipSimple⟩
    obtain ⟨classPath, hnames⟩ := readClassPath_eq_ok_iff.mpr hclassPath
    obtain ⟨skipSimple, hskip⟩ := readSkipSimple_eq_ok_iff.mpr hskipSimple
    exact ⟨{ classPath, skipSimple, logLevel := readLogLevel entries, logFile := given entries "log_file" },
      ofDocument_mapping_eq_ok_iff.mpr ⟨checkKeys_eq_ok_iff.mpr hkeys, hnames, hskip, rfl, rfl⟩⟩

theorem ofDocument_cases (document : Document) :
    document = .null ∨ (∃ entries, document = .mapping entries) ∨
      ofDocument document = .error .notAMapping ∧ ¬IsAcceptable document := by
  cases document with
  | scalar value =>
    cases value with
    | null => exact .inl rfl
    | bool _ => exact .inr (.inr ⟨rfl, id⟩)
    | int _ => exact .inr (.inr ⟨rfl, id⟩)
    | real _ => exact .inr (.inr ⟨rfl, id⟩)
    | text _ => exact .inr (.inr ⟨rfl, id⟩)
  | list _ => exact .inr (.inr ⟨rfl, id⟩)
  | mapping entries => exact .inr (.inl ⟨entries, rfl⟩)
  | foreign _ => exact .inr (.inr ⟨rfl, id⟩)

theorem exists_ofDocument_iff {document : Document} :
    (∃ settings, ofDocument document = .ok settings) ↔ IsAcceptable document := by
  rcases ofDocument_cases document with rfl | ⟨entries, rfl⟩ | ⟨hrefused, hnot⟩
  · exact ⟨fun _ => trivial, fun _ => ⟨{}, rfl⟩⟩
  · exact exists_ofDocument_mapping_iff
  · rw [hrefused]
    exact ⟨nofun, fun h => (hnot h).elim⟩

/-- Whatever is refused is refused for what the document says. -/
theorem blamesDocument_of_ofDocument {document : Document} (hkeys : document.HasTextKeys) {error : SettingsError}
    (h : ofDocument document = .error error) : error.BlamesDocument := by
  rcases ofDocument_cases document with rfl | ⟨entries, rfl⟩ | ⟨hrefused, _⟩
  · cases h
  · rw [ofDocument_mapping] at h
    rcases bind_eq_error_iff.mp h with hunknown | ⟨_, _, h⟩
    · exact blamesDocument_of_checkKeys hkeys hunknown
    rcases bind_eq_error_iff.mp h with hclassPath | ⟨_, _, h⟩
    · exact blamesDocument_of_readClassPath hclassPath
    rcases bind_eq_error_iff.mp h with hskip | ⟨_, _, h⟩
    · exact blamesDocument_of_readSkipSimple hskip
    · cases h
  · cases hrefused.symm.trans h
    trivial

/-- The log level of settings is never empty, and their log file is whatever is given. -/
theorem parts_of_ofDocument {document : Document} {settings : Settings} (h : ofDocument document = .ok settings) :
    settings.logLevel ≠ "" ∧ settings.logFile = (document.get? "log_file").getD .null := by
  rcases ofDocument_cases document with rfl | ⟨entries, rfl⟩ | ⟨hrefused, _⟩
  · cases h
    exact ⟨by decide, rfl⟩
  · obtain ⟨_, _, _, hlogLevel, hlogFile⟩ := ofDocument_mapping_eq_ok_iff.mp h
    exact ⟨hlogLevel ▸ readLogLevel_ne_empty entries, hlogFile⟩
  · cases hrefused.symm.trans h

end Settings

open Settings in
/-- A document with text keys is refused exactly if something that is looked at is not what it has to be, and then the error says so; otherwise it gives settings, and all parts of them have their declared types exactly if the document gives a text or null for the log file. -/
theorem settings_are_typed_iff (document : Document) (hkeys : document.HasTextKeys) :
    (∃ error, ofDocument document = .error error ∧ error.BlamesDocument ∧ ¬IsAcceptable document) ∨
      ∃ settings, ofDocument document = .ok settings ∧ IsAcceptable document ∧
        (settings.IsTyped ↔ ((document.get? "log_file").getD .null).IsNullOrText) := by
  cases hread : ofDocument document with
  | error error =>
    refine .inl ⟨error, rfl, blamesDocument_of_ofDocument hkeys hread, fun hacceptable => ?_⟩
    obtain ⟨settings, hsettings⟩ := exists_ofDocument_iff.mpr hacceptable
    cases hread.symm.trans hsettings
  | ok settings =>
    obtain ⟨hlogLevel, hlogFile⟩ := parts_of_ofDocument hread
    refine .inr ⟨settings, rfl, exists_ofDocument_iff.mp ⟨settings, hread⟩, ?_⟩
    rw [← hlogFile]
    exact ⟨IsTyped.logFile, fun h => ⟨hlogLevel, h⟩⟩

namespace Settings

/-- A document that gives every part of the settings. -/
def fullDocument : Document :=
  .record [("classpath", .list [.text "java.util.List"]), ("skip_simple_arguments", .bool true), ("log_level", .nat 10),
    ("log_file", .text "run.log")]

/-- A document whose log file is a number. -/
def numberedFile : Document := .record [("log_file", .nat 5)]

end Settings

open Settings in
/-- The full document is read, its level as a text, and every part has its declared type. -/
theorem settings_of_fullDocument_are_typed :
    fullDocument.HasTextKeys ∧
      ∃ settings, ofDocument fullDocument = .ok settings ∧ settings.logLevel = "10" ∧ settings.IsTyped := by
  have hkeys : fullDocument.HasTextKeys := by
    simp [fullDocument, Document.record, Document.HasTextKeys, Document.Key.isText, Scalar.isText]
  have hread : ofDocument fullDocument = .ok ⟨["java.util.List"], true, "10", .text "run.log"⟩ := rfl
  refine ⟨hkeys, _, hread, rfl, ?_⟩
  rcases settings_are_typed_iff fullDocument hkeys with ⟨error, herror, _⟩ | ⟨settings, hsettings, _, htyped⟩
  · cases hread.symm.trans herror
  · cases hread.symm.trans hsettings
    exact htyped.mpr (.inr ⟨"run.log", rfl⟩)

open Settings in
/-- A number for the log file is let through, and the settings hold something that names no file. -/
theorem number_for_log_file_is_let_through :
    numberedFile.HasTextKeys ∧ ofDocument numberedFile = .ok { logFile := .nat 5 } ∧
      ¬({ logFile := .nat 5 } : Settings).IsTyped := by
  refine ⟨?_, rfl, ?_⟩
  · simp [numberedFile, Document.record, Document.HasTextKeys, Document.Key.isText, Scalar.isText]
  · rintro ⟨_, hnull | ⟨name, htext⟩⟩
    · cases hnull
    · cases htext

end GuardedLogging
