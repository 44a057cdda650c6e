import FleetAtlas.Settings.File

/-!
# Layers of settings

* `Field α`: one of the things that a layer may set, and that a layer over another one sets as either of them does;
* `Field.Resolves`: what the command line sets, else the last file that sets anything, else nothing;
* `Resolved`: settings of which each one is what it resolves to, or its default;
* `Options.load_ok_iff`, `Options.load_insert`, `Options.layer_error`: the settings over files that can be read are the
  resolved ones, a file that sets nothing changes nothing, and with a file that cannot be read there are no settings;
* `Options.load_resolves`: **layers of settings resolve one by one**.
-/

namespace FleetAtlas

attribute [ext] StorageSettings Settings

/-- Files over a layer, each over those before it. -/
def Options.stack (below : Options) (files : List Options) : Options :=
  files.foldl (fun below file => file.or below) below

theorem Options.stack_cons (below file : Options) (rest : List Options) :
    stack below (file :: rest) = stack (file.or below) rest := rfl

/-! ### What a layer may set -/

/-- One of the things that a layer may set. -/
structure Field (α : Type) where
  get : Options → Option α
  get_or : ∀ o fallback, get (o.or fallback) = (get o <|> get fallback)
  get_unset : get .unset = none

namespace Field

def cleanupPeriod : Field UInt64 := ⟨Options.cleanupPeriod, fun _ _ => rfl, rfl⟩
def listen : Field String := ⟨Options.listen, fun _ _ => rfl, rfl⟩
def logFormat : Field LogFormat := ⟨Options.logFormat, fun _ _ => rfl, rfl⟩
def mongodbConnection : Field String := ⟨fun o => o.storage.mongodbConnection, fun _ _ => rfl, rfl⟩
def mongodbDatabase : Field String := ⟨fun o => o.storage.mongodbDatabase, fun _ _ => rfl, rfl⟩
def neo4jConnection : Field String := ⟨fun o => o.storage.neo4jConnection, fun _ _ => rfl, rfl⟩
def neo4jUsername : Field String := ⟨fun o => o.storage.neo4jUsername, fun _ _ => rfl, rfl⟩
def neo4jPassword : Field String := ⟨fun o => o.storage.neo4jPassword, fun _ _ => rfl, rfl⟩

variable {α : Type} (x : Field α) (flags : Options)

/-- **What is set in the end**: by the command line, else by the last file that sets anything, else by none. -/
inductive Resolves (files : List Options) : Option α → Prop
  | flag {v : α} : x.get flags = some v → Resolves files (some v)
  | file {before after : List Options} {o : Options} {v : α} : x.get flags = none → files = before ++ o :: after →
      x.get o = some v → (∀ later ∈ after, x.get later = none) → Resolves files (some v)
  | unset : x.get flags = none → (∀ o ∈ files, x.get o = none) → Resolves files none

/-- What files set over a layer: what the last one does that sets anything, or what the layer does. -/
theorem get_stack (files : List Options) (below : Options) :
    (∃ before o after v, files = before ++ o :: after ∧ x.get o = some v ∧ (∀ later ∈ after, x.get later = none) ∧
      x.get (.stack below files) = some v) ∨
    ((∀ o ∈ files, x.get o = none) ∧ x.get (.stack below files) = x.get below) := by
  induction files generalizing below with
  | nil => exact .inr ⟨List.forall_mem_nil _, rfl⟩
  | cons file rest ih =>
    rw [Options.stack_cons]
    obtain ⟨before, o, after, v, rfl, hv⟩ | ⟨hrest, hget⟩ := ih (file.or below)
    · exact .inl ⟨file :: before, o, after, v, rfl, hv⟩
    · rw [hget, x.get_or]
      cases hfile : x.get file with
      | some v => exact .inl ⟨[], file, rest, v, rfl, hfile, hrest, rfl⟩
      | none => exact .inr ⟨List.forall_mem_cons.mpr ⟨hfile, hrest⟩, rfl⟩

theorem resolves (files : List Options) : x.Resolves flags files (x.get (flags.or (.stack .unset files))) := by
  rw [x.get_or]
  cases hflag : x.get flags with
  | some v => exact .flag hflag
  | none =>
    obtain ⟨before, o, after, v, e, hv, hafter, hget⟩ | ⟨hfiles, hget⟩ := x.get_stack files .unset
    · rw [hget]
      exact .file hflag e hv hafter
    · rw [hget, x.get_unset]
      exact .unset hflag hfiles

/-- What is set in the end is determined. -/
theorem Resolves.eq {x : Field α} {flags : Options} {files : List Options} {v : Option α}
    (h : x.Resolves flags files v) : v = (x.get flags <|> (files.filterMap x.get).getLast?) := by
  cases h with
  | flag hflag =>
    rw [hflag]
    rfl
  | file hflag e hv hafter =>
    rw [hflag, e, List.filterMap_append, List.filterMap_cons_some hv, List.filterMap_eq_nil_iff.mpr hafter,
      List.getLast?_concat]
    rfl
  | unset hflag hfiles =>
    rw [hflag, List.filterMap_eq_nil_iff.mpr hfiles]
    rfl

theorem Resolves.unique {x : Field α} {flags : Options} {files : List Options} {v v' : Option α}
    (h : x.Resolves flags files v) (h' : x.Resolves flags files v') : v = v' := h.eq.trans h'.eq.symm

end Field

/-- Settings of which each one is what it resolves to, or its default. -/
structure Resolved (flags : Options) (files : List Options) (s : Settings) : Prop where
  cleanupPeriod : ∃ v, Field.cleanupPeriod.Resolves flags files v ∧ s.cleanupPeriod = v.getD 60
  listen : ∃ v, Field.listen.Resolves flags files v ∧ s.listen = v.getD "0.0.0.0:9000"
  logFormat : ∃ v, Field.logFormat.Resolves flags files v ∧ s.logFormat = v.getD .console
  mongodbConnection : Field.mongodbConnection.Resolves flags files s.storage.mongodbConnection
  mongodbDatabase : Field.mongodbDatabase.Resolves flags files s.storage.mongodbDatabase
  neo4jConnection : Field.neo4jConnection.Resolves flags files s.storage.neo4jConnection
  neo4jUsername : Field.neo4jUsername.Resolves flags files s.storage.neo4jUsername
  neo4jPassword : Field.neo4jPassword.Resolves flags files s.storage.neo4jPassword

/-- There is one way to resolve them. -/
theorem Resolved.unique {flags : Options} {files : List Options} {s s' : Settings} (h : Resolved flags files s)
    (h' : Resolved flags files s') : s = s' := by
  obtain ⟨_, hp, ep⟩ := h.cleanupPeriod
  obtain ⟨_, hp', ep'⟩ := h'.cleanupPeriod
  obtain ⟨_, hl, el⟩ := h.listen
  obtain ⟨_, hl', el'⟩ := h'.listen
  obtain ⟨_, hf, ef⟩ := h.logFormat
  obtain ⟨_, hf', ef'⟩ := h'.logFormat
  have hstorage : s.storage = s'.storage :=
    StorageSettings.ext (h.mongodbConnection.unique h'.mongodbConnection) (h.mongodbDatabase.unique h'.mongodbDatabase)
      (h.neo4jConnection.unique h'.neo4jConnection) (h.neo4jUsername.unique h'.neo4jUsername)
      (h.neo4jPassword.unique h'.neo4jPassword)
  refine Settings.ext ?_ ?_ ?_ hstorage
  · rw [ep, ep', hp.unique hp']
  · rw [el, el', hl.unique hl']
  · rw [ef, ef', hf.unique hf']

namespace Options

/-! ### Layers -/

/-- A layer that sets nothing. -/
def SetsNothing (o : Options) : Prop :=
  o.cleanupPeriod = none ∧ o.listen = none ∧ o.logFormat = none ∧ o.storage = .unset

theorem layer_ok (below : Options) (files : List Options) : layer below (files.map .ok) = .ok (stack below files) := by
  induction files generalizing below with
  | nil => rfl
  | cons file rest ih => exact ih (file.or below)

theorem layer_append (below : Options) (files more : List (Except SettingsError Options)) :
    layer below (files ++ more) = layer below files >>= fun o => layer o more := by
  induction files generalizing below with
  | nil => rfl
  | cons file rest ih =>
    cases file with
    | ok o => exact ih (o.or below)
    | error e => rfl

/-- With a file that cannot be read there is no layer. -/
theorem layer_error (below : Options) {files : List (Except SettingsError Options)} {e : SettingsError}
    (h : .error e ∈ files) : ∃ e, layer below files = .error e := by
  induction files generalizing below with
  | nil => exact nomatch h
  | cons file rest ih =>
    cases file with
    | error e => exact ⟨e, rfl⟩
    | ok o =>
      obtain h | h := List.mem_cons.mp h
      · exact nomatch h
      · exact ih (o.or below) h

/-- A layer that sets nothing does not show under another one. -/
theorem or_or_of_setsNothing {o : Options} (h : o.SetsNothing) (above below : Options) :
    above.or (o.or below) = above.or below := by
  obtain ⟨hperiod, hlisten, hformat, hstorage⟩ := h
  simp only [or, hperiod, hlisten, hformat, hstorage]
  rfl

/-! ### Loading -/

theorem load_eq (flags : Options) (files : List (Except SettingsError Options)) :
    load flags files = (layer unset files).map fun o => (flags.or o).settings := by
  unfold load
  cases layer unset files <;> rfl

theorem resolved_settings (flags : Options) (files : List Options) :
    Resolved flags files (flags.or (stack unset files)).settings where
  cleanupPeriod := ⟨_, Field.cleanupPeriod.resolves flags files, rfl⟩
  listen := ⟨_, Field.listen.resolves flags files, rfl⟩
  logFormat := ⟨_, Field.logFormat.resolves flags files, rfl⟩
  mongodbConnection := Field.mongodbConnection.resolves flags files
  mongodbDatabase := Field.mongodbDatabase.resolves flags files
  neo4jConnection := Field.neo4jConnection.resolves flags files
  neo4jUsername := Field.neo4jUsername.resolves flags files
  neo4jPassword := Field.neo4jPassword.resolves flags files

/-- The settings over files that can be read are the ones that are resolved. -/
theorem load_ok_iff (flags : Options) (files : List Options) (s : Settings) :
    load flags (files.map .ok) = .ok s ↔ Resolved flags files s := by
  have hload : load flags (files.map .ok) = .ok (flags.or (stack unset files)).settings := by
    rw [load_eq, layer_ok]
    rfl
  rw [hload]
  refine ⟨fun h => Except.ok.inj h ▸ resolved_settings flags files, fun h => ?_⟩
  rw [(resolved_settings flags files).unique h]

/-- A file that sets nothing changes nothing, wherever it stands. -/
theorem load_insert (flags : Options) {o : Options} (h : o.SetsNothing)
    (before after : List (Except SettingsError Options)) :
    load flags (before ++ .ok o :: after) = load flags (before ++ after) := by
  simp only [load_eq, layer_append]
  cases layer unset before with
  | error e => rfl
  | ok below =>
    show (layer (o.or below) after).map _ = (layer below after).map _
    cases after with
    | nil => exact congrArg (fun o => Except.ok o.settings) (or_or_of_setsNothing h flags below)
    | cons file rest =>
      cases file with
      | error e => rfl
      | ok p =>
        show (layer (p.or (o.or below)) rest).map _ = (layer (p.or below) rest).map _
        rw [or_or_of_setsNothing h]

/-- **Layers of settings resolve one by one.** -/
theorem load_resolves (flags : Options) (texts : List (Option String)) :
    (∀ files, texts.map ofFile = files.map .ok →
      (∃ s, load flags (texts.map ofFile) = .ok s) ∧
      ∀ s, load flags (texts.map ofFile) = .ok s ↔ Resolved flags files s) ∧
    (∀ before after blank o, texts = before ++ after → ofFile blank = .ok o → o.SetsNothing →
      load flags ((before ++ blank :: after).map ofFile) = load flags (texts.map ofFile)) ∧
    ∀ text ∈ texts, ∀ e, ofFile text = .error e → ∃ e, load flags (texts.map ofFile) = .error e := by
  refine ⟨fun files h => ?_, fun before after blank o e hblank hnothing => ?_, fun text hmem e herror => ?_⟩
  · rw [h]
    exact ⟨⟨_, (load_ok_iff flags files _).mpr (resolved_settings flags files)⟩, load_ok_iff flags files⟩
  · rw [e, List.map_append, List.map_cons, hblank, List.map_append]
    exact load_insert flags hnothing _ _
  · have hfile : .error e ∈ texts.map ofFile := herror ▸ List.mem_map_of_mem hmem
    obtain ⟨e, hlayer⟩ := layer_error unset hfile
    exact ⟨e, by rw [load_eq, hlayer]; rfl⟩

theorem ofFile_of_ofText? {text : String} {o : Options} (h : ofText? text = some o) : ofFile (some text) = .ok o := by
  rw [ofFile, h]

/-- A file with a period, an address and a storage. -/
def baseText : String := "cleanupPeriod: 30\nlisten: 127.0.0.1:8080\nmongodbConnectionString: mongodb://base\n"

def baseOptions : Options :=
  ⟨[], some 30, some "127.0.0.1:8080", none, ⟨some "mongodb://base", none, none, none, none⟩⟩

theorem ofFile_baseText : ofFile (some baseText) = .ok baseOptions := ofFile_of_ofText? (by decide +kernel)

/-- A file with another period and a format. -/
def overlayText : String := "cleanupPeriod: 10\nlogFormat: json\n"

def overlayOptions : Options := ⟨[], some 10, none, some .json, .unset⟩

theorem ofFile_overlayText : ofFile (some overlayText) = .ok overlayOptions := ofFile_of_ofText? (by decide +kernel)

/-- A file with a key that means nothing. -/
def strangeText : String := "# nothing\nother: 1\n"

theorem ofFile_strangeText : ofFile (some strangeText) = .ok unset := ofFile_of_ofText? (by decide +kernel)

/-- The period is that of the last file, the storage that of the first one, and the address that of the command line. -/
theorem load_resolves_overlay :
    Resolved { unset with listen := some "0.0.0.0:9100" } [baseOptions, overlayOptions]
      ⟨10, "0.0.0.0:9100", .json, ⟨some "mongodb://base", none, none, none, none⟩⟩ ∧
    load unset ([some baseText, some strangeText, some overlayText].map ofFile) =
      load unset ([some baseText, some overlayText].map ofFile) ∧
    ∃ e, load unset ([some baseText, none].map ofFile) = .error e := by
  have hfiles : [some baseText, some overlayText].map ofFile = [baseOptions, overlayOptions].map .ok := by
    rw [List.map_cons, List.map_singleton, ofFile_baseText, ofFile_overlayText]
    rfl
  refine ⟨(((load_resolves _ _).1 _ hfiles).2 _).mp ?_,
    (load_resolves unset _).2.1 [some baseText] [some overlayText] _ unset rfl ofFile_strangeText ⟨rfl, rfl, rfl, rfl⟩,
    (load_resolves unset _).2.2 none (by simp) .missingFile rfl⟩
  rw [hfiles]
  rfl

end Options

end FleetAtlas
