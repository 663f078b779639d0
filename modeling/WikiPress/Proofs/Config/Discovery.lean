import WikiPress.Config.Load
import WikiPress.Proofs.Files.SameLocation

/-!
# WikiPress.Proofs.Config.Discovery

A configuration file that is found, and the same file when it is named.

Design points:

* The path to a file tells two things, its text and the directory its paths are seen from.
  Paths of one location give the same text, so the same settings or the same error
  (`ofFile_cases`).
* Seen from the directories of two paths to one entry, a setting names one location, however
  it is written (`FileSystem.SameEntry.sameLocation_join`). So do the paths of the
  configurations (`samePlaces_resolve`), and everything else in them comes from the settings
  alone (`sameValues_resolve`).
* The title of the root page is read off the path of the source directory as it is written.
  Where neither the command line nor the settings tell it, it is read off the path to the file,
  which tells it in one form and not in another (`rootTitle_eq_iff`).
-/

namespace WikiPress.Config

open WikiPress.Files (FileSystem join parent fileName isAbsolute Tells)

variable {fs : FileSystem} {env : String → Option String} {path other : String}
  {settings : Settings} {overrides : Overrides}

/-! ## The configuration of a file -/

/-- The directory that the paths in a configuration file are seen from. -/
def directoryOf (path : String) : String :=
  (parent path).getD "."

/-- Whether the file of a path makes some settings, with their references replaced. -/
def SettingsAt (fs : FileSystem) (env : String → Option String) (path : String)
    (settings : Settings) : Prop :=
  ∃ text written, fs.readText path = .ok text ∧ readSettings text = some written
    ∧ expandSettings env written = .ok settings

theorem SettingsAt.eq {other : Settings} (h : SettingsAt fs env path settings)
    (h' : SettingsAt fs env path other) : other = settings := by
  obtain ⟨text, written, htext, hwritten, hsettings⟩ := h
  obtain ⟨text', written', htext', hwritten', hsettings'⟩ := h'
  cases htext.symm.trans htext'
  cases hwritten.symm.trans hwritten'
  cases hsettings.symm.trans hsettings'
  rfl

theorem ofFile_of_settings (h : SettingsAt fs env path settings) :
    ofFile fs env path = (do
      (resolve (directoryOf path) (some path) settings).validate
      .ok (resolve (directoryOf path) (some path) settings)) := by
  obtain ⟨text, written, htext, hwritten, hsettings⟩ := h
  unfold ofFile
  simp only [htext, Except.mapError, bind, Except.bind, hwritten, hsettings]
  rfl

/-- A file makes settings, or there is an error that its path has no part in. -/
theorem ofFile_cases (fs : FileSystem) (env : String → Option String) (path : String) :
    (∃ settings, SettingsAt fs env path settings)
    ∨ ∃ e, ∀ other, fs.readText other = fs.readText path → ofFile fs env other = .error e := by
  cases htext : fs.readText path with
  | error e =>
      refine Or.inr ⟨.io e, fun other hother => ?_⟩
      unfold ofFile
      rw [hother]
      rfl
  | ok text =>
      cases hwritten : readSettings text with
      | none =>
          refine Or.inr ⟨.malformed, fun other hother => ?_⟩
          unfold ofFile
          simp only [hother, Except.mapError, bind, Except.bind, hwritten]
      | some written =>
          cases hsettings : expandSettings env written with
          | error e =>
              refine Or.inr ⟨e, fun other hother => ?_⟩
              unfold ofFile
              simp only [hother, Except.mapError, bind, Except.bind, hwritten, hsettings]
          | ok settings => exact Or.inl ⟨settings, text, written, htext, hwritten, hsettings⟩

/-! ## Configurations of the same settings -/

/-- Whether two configurations say the same, paths and the title of the root page aside. -/
structure SameValues (config other : Config) : Prop where
  attachmentsFolder : other.attachmentsFolder = config.attachmentsFolder
  indexName : other.indexName = config.indexName
  explicitTitle : other.explicitTitle = config.explicitTitle
  hardLineBreak : other.hardLineBreak = config.hardLineBreak
  diagramLanguage : other.diagramLanguage = config.diagramLanguage
  tipTitle : other.tipTitle = config.tipTitle
  rootPageId : other.rootPageId = config.rootPageId
  validate : other.validate = config.validate

/-- Whether the paths of two configurations name the same locations. -/
structure SamePlaces (fs : FileSystem) (config other : Config) : Prop where
  sourceDirectory : fs.SameLocation config.sourceDirectory other.sourceDirectory
  stateFile : fs.SameLocation config.stateFile other.stateFile
  outDirectory : fs.SameLocation config.outDirectory other.outDirectory

section Override

variable {config other : Config}

/-- What the command line says is the same for both. -/
theorem SameValues.override (h : SameValues config other) (overrides : Overrides) :
    SameValues (config.override overrides) (other.override overrides) where
  attachmentsFolder := h.attachmentsFolder
  indexName := h.indexName
  explicitTitle := h.explicitTitle
  hardLineBreak := congrArg overrides.hardLineBreak.getD h.hardLineBreak
  diagramLanguage := h.diagramLanguage
  tipTitle := h.tipTitle
  rootPageId := h.rootPageId
  validate := h.validate

theorem sameLocation_getD {path other : String} (h : fs.SameLocation path other)
    (given : Option String) : fs.SameLocation (given.getD path) (given.getD other) := by
  cases given with
  | none => exact h
  | some location => exact .refl fs location

theorem SamePlaces.override (h : SamePlaces fs config other) (overrides : Overrides) :
    SamePlaces fs (config.override overrides) (other.override overrides) where
  sourceDirectory := sameLocation_getD h.sourceDirectory _
  stateFile := sameLocation_getD h.stateFile _
  outDirectory := sameLocation_getD h.outDirectory _

end Override

section Resolve

variable (directory directory' : String) (path path' : Option String) (settings : Settings)

/-- Where settings are seen from matters for their paths alone. -/
theorem sameValues_resolve :
    SameValues (resolve directory path settings) (resolve directory' path' settings) :=
  ⟨rfl, rfl, rfl, rfl, rfl, rfl, rfl, rfl⟩

/-- The program's own files are seen from the directory too. -/
theorem getD_join_project (name : String) (setting : Option String) :
    (setting.map (join directory)).getD (join (join directory projectName) name)
      = join directory (setting.getD (join projectName name)) := by
  have hproject : Files.ProperName projectName := by decide
  cases setting with
  | none => exact Files.join_join directory hproject name
  | some path => rfl

/-- Settings have the same places, seen from directories that have. -/
theorem samePlaces_resolve
    (h : ∀ setting, fs.SameLocation (join directory setting) (join directory' setting)) :
    SamePlaces fs (resolve directory path settings) (resolve directory' path' settings) where
  sourceDirectory := h _
  stateFile := by
    simp only [resolve, getD_join_project]
    exact h _
  outDirectory := by
    simp only [resolve, getD_join_project]
    exact h _

end Resolve

/-! ## The title of the root page -/

/-- The title a directory gives to the root page. -/
def titleOf (directory : String) : String :=
  (fileName directory).getD "Docs"

/-- Whether the title of the root page is told without the directory of the file: it is given,
or the source directory says more than "here". -/
def TellTitle (settings : Settings) (overrides : Overrides) : Prop :=
  let source := settings.sourceDirectory.getD "docs"
  settings.rootTitle.isSome ∨ overrides.sourceDirectory.isSome ∨ isAbsolute source ∨ Tells source

instance (settings : Settings) (overrides : Overrides) :
    Decidable (TellTitle settings overrides) :=
  inferInstanceAs (Decidable (_ ∨ _ ∨ _ ∨ _))

theorem rootTitle_resolve (directory : String) (path : Option String) (settings : Settings)
    (overrides : Overrides) :
    ((resolve directory path settings).override overrides).rootTitle
      = settings.rootTitle.getD (titleOf (overrides.sourceDirectory.getD
        (join directory (settings.sourceDirectory.getD "docs")))) :=
  rfl

/-- The titles of settings seen from two directories are the same if they are told without
these, or if the directories give the same. -/
theorem rootTitle_eq_iff (directory directory' : String) (path path' : Option String)
    (settings : Settings) (overrides : Overrides) :
    ((resolve directory' path' settings).override overrides).rootTitle
        = ((resolve directory path settings).override overrides).rootTitle
      ↔ TellTitle settings overrides ∨ titleOf directory' = titleOf directory := by
  rw [rootTitle_resolve, rootTitle_resolve]
  unfold TellTitle
  cases htitle : settings.rootTitle with
  | some title => exact iff_of_true rfl (Or.inl (Or.inl rfl))
  | none =>
      cases hsource : overrides.sourceDirectory with
      | some source => exact iff_of_true rfl (Or.inl (Or.inr (Or.inl rfl)))
      | none =>
          simp only [Option.getD_none, Option.isSome_none, Bool.false_eq_true, false_or]
          generalize settings.sourceDirectory.getD "docs" = source
          by_cases habsolute : isAbsolute source = true
          · rw [Files.join_of_absolute _ habsolute, Files.join_of_absolute _ habsolute]
            exact iff_of_true rfl (Or.inl (Or.inl habsolute))
          · by_cases htells : Tells source
            · unfold titleOf
              rw [Files.fileName_join_of_tells _ htells, Files.fileName_join_of_tells _ htells]
              exact iff_of_true rfl (Or.inl (Or.inr htells))
            · have hrelative : isAbsolute source = false := Bool.not_eq_true _ ▸ habsolute
              unfold titleOf
              rw [Files.fileName_join_of_silent _ hrelative htells,
                Files.fileName_join_of_silent _ hrelative htells]
              simp only [hrelative, htells, Bool.false_eq_true, or_self, false_or]

/-! ## Found and named -/

theorem has_iff : fs.has path = true ↔ ∃ node, fs.node path = .ok node := by
  unfold FileSystem.has
  cases fs.node path <;> simp [Except.toOption]

/-- Paths of one location give the same text. -/
theorem readText_eq (h : fs.SameLocation path other) (hpath : fs.has path = true)
    (hother : fs.has other = true) : fs.readText other = fs.readText path := by
  obtain ⟨node, hnode⟩ := has_iff.1 hpath
  obtain ⟨found, hfound⟩ := has_iff.1 hother
  obtain rfl := h.node_eq hnode hfound
  unfold FileSystem.readText FileSystem.read
  rw [hnode, hfound]

theorem not_directory_of_settings (h : SettingsAt fs env path settings) :
    fs.isDirectory path = false := by
  obtain ⟨text, -, htext, -⟩ := h
  unfold FileSystem.readText FileSystem.read at htext
  unfold FileSystem.isDirectory
  cases hnode : fs.node path with
  | error e => rfl
  | ok node =>
      cases node with
      | file content => rfl
      | link target => rfl
      | directory entries =>
          rw [hnode] at htext
          cases htext

theorem has_of_discover {found : String} (h : discover fs = some found) :
    fs.has found = true :=
  List.find?_some h

/-- **A file that is found gives the configuration it gives when it is named, but for the title
of the root page.** With any path that leads to the file, finding it and naming it fail alike,
or both give configurations that say the same. Their paths name the same locations if the path
leads to the very entry that was found, and not through another link. The titles of the root
page are the same if and only if the title is told without the directory of the file, or the
two paths give that directory one name. -/
theorem load_named {found : String} (env : String → Option String) (overrides : Overrides)
    (hfound : discover fs = some found) (hhas : fs.has path = true)
    (hsame : fs.SameLocation found path) :
    (∃ e, load fs env none overrides = .error e ∧ load fs env (some path) overrides = .error e)
    ∨ ∃ config named settings, load fs env none overrides = .ok config
      ∧ load fs env (some path) overrides = .ok named
      ∧ SettingsAt fs env found settings
      ∧ SameValues config named
      ∧ (fs.SameEntry found path → SamePlaces fs config named)
      ∧ (named.rootTitle = config.rootTitle
        ↔ TellTitle settings overrides
          ∨ titleOf (directoryOf path) = titleOf (directoryOf found)) := by
  have htext := readText_eq hsame (has_of_discover hfound) hhas
  unfold load
  simp only [hfound, hhas, if_true]
  rcases ofFile_cases fs env found with ⟨settings, hsettings⟩ | ⟨e, hfails⟩
  · have hnamed : SettingsAt fs env path settings := by
      unfold SettingsAt
      rw [htext]
      exact hsettings
    have hvalues := sameValues_resolve (directoryOf found) (directoryOf path) (some found)
      (some path) settings
    have hplaces : fs.SameEntry found path →
        SamePlaces fs (resolve (directoryOf found) (some found) settings)
          (resolve (directoryOf path) (some path) settings) := by
      intro hentry
      refine samePlaces_resolve _ _ _ _ _ fun setting => ?_
      obtain ⟨_, _, habove, habove', hlocation⟩ :=
        hentry.sameLocation_join (not_directory_of_settings hsettings) setting
      unfold directoryOf
      rw [habove, habove']
      exact hlocation
    rw [ofFile_of_settings hsettings, ofFile_of_settings hnamed, hvalues.validate]
    cases (resolve (directoryOf found) (some found) settings).validate with
    | error e => exact Or.inl ⟨e, rfl, rfl⟩
    | ok _ =>
        exact Or.inr ⟨_, _, settings, rfl, rfl, hsettings, hvalues.override overrides,
          fun hentry => (hplaces hentry).override overrides, rootTitle_eq_iff _ _ _ _ _ _⟩
  · exact Or.inl ⟨e, by rw [hfails found rfl]; rfl, by rw [hfails path htext]; rfl⟩

/-! ## One file by two names -/

/-- The text of a file whose documents are beside it. -/
def besideText : String := "[docs]\nsource_dir = \".\"\n"

/-- The settings of that file. -/
def besideSettings : Settings := { noSettings with sourceDirectory := some "." }

/-- A working directory with that file. -/
def besideFiles : FileSystem :=
  { root := .directory [("wiki", .directory [(defaultName, .file besideText.toUTF8)])]
    workingDirectory := ["wiki"] }

theorem find_beside_found (follow : Bool) : besideFiles.find "/wiki/confsync.toml" follow
    = .ok (.node [defaultName, "wiki"] (.file besideText.toUTF8)) := by
  have hname : Files.ProperName defaultName := by decide
  have hjoin : join "/wiki" defaultName = "/wiki/confsync.toml" := by decide +kernel
  have hsteps : Files.plainSteps "/wiki" = [.into "wiki"] := by decide +kernel
  have hat : Files.At besideFiles "/wiki" ["wiki"] Files.linkLimit := by
    refine ⟨⟨by decide, by decide⟩, ?_⟩
    rw [hsteps]
    exact .into ⟨_, rfl⟩ (by decide) rfl (by simp) .arrived
  rw [← hjoin, hat.find_join rfl hname (by decide) follow]
  exact Files.walk_into_node (by decide) rfl (by simp)

theorem find_beside_named (follow : Bool) : besideFiles.find "confsync.toml" follow
    = .ok (.node [defaultName, "wiki"] (.file besideText.toUTF8)) := by
  have hsteps : Files.stepsOf "confsync.toml" = [.into defaultName] := by decide +kernel
  unfold FileSystem.find FileSystem.walkFrom
  rw [hsteps, if_neg (by decide), if_neg (by decide), if_neg (by decide)]
  exact Files.walk_into_node (by decide) rfl (by simp)

theorem settingsAt_beside {path : String}
    (h : besideFiles.find path true
      = .ok (.node [defaultName, "wiki"] (.file besideText.toUTF8))) :
    SettingsAt besideFiles (fun _ => none) path besideSettings := by
  have htext : besideFiles.readText path = .ok besideText := by
    have hdecoded : String.fromUTF8? besideText.toUTF8 = some besideText := by decide +kernel
    simp only [FileSystem.readText, FileSystem.read, FileSystem.node, h, bind, Except.bind,
      hdecoded]
  exact ⟨besideText, besideSettings, htext, by decide +kernel, rfl⟩

theorem discover_beside : discover besideFiles = some "/wiki/confsync.toml" := by
  have hpaths : (Files.ancestors besideFiles.workingPath).map (join · defaultName)
      = ["/wiki/confsync.toml", "/confsync.toml"] := by decide +kernel
  have hhas : besideFiles.has "/wiki/confsync.toml" = true :=
    has_iff.2 ⟨_, Files.FileSystem.node_eq_ok_iff.2 ⟨_, find_beside_found true⟩⟩
  rw [discover, hpaths, List.find?_cons_of_pos hhas]

/-- A file whose documents are beside it gives them the name of the working directory if it is
found, and none if it is named by its file name. -/
theorem load_named_beside :
    let found := "/wiki/confsync.toml"
    let path := "confsync.toml"
    let env : String → Option String := fun _ => none
    discover besideFiles = some found ∧ besideFiles.has path = true
    ∧ besideFiles.SameLocation found path
    ∧ ∃ config named, load besideFiles env none {} = .ok config
      ∧ load besideFiles env (some path) {} = .ok named
      ∧ SameValues config named ∧ SamePlaces besideFiles config named
      ∧ named.rootTitle ≠ config.rootTitle := by
  intro found path env
  have hhas : besideFiles.has path = true :=
    has_iff.2 ⟨_, Files.FileSystem.node_eq_ok_iff.2 ⟨_, find_beside_named true⟩⟩
  have hentry : besideFiles.SameEntry found path :=
    ⟨_, _, find_beside_found false, find_beside_named false⟩
  refine ⟨discover_beside, hhas, hentry.sameLocation, ?_⟩
  have hsettings := settingsAt_beside (find_beside_found true)
  rcases load_named env {} discover_beside hhas hentry.sameLocation with
    ⟨e, hfails, -⟩ | ⟨config, named, settings, hconfig, hnamed, hreads, hvalues, hplaces, htitle⟩
  · -- the settings are in order
    have hvalid : (resolve (directoryOf found) (some found) besideSettings).validate = .ok () := by
      decide +kernel
    have hfile : ofFile besideFiles env "/wiki/confsync.toml"
        = .ok (resolve (directoryOf found) (some found) besideSettings) := by
      rw [ofFile_of_settings hsettings]
      exact congrArg (· >>= _) hvalid
    unfold load at hfails
    simp only [discover_beside, hfile] at hfails
    cases hfails
  · obtain rfl := hsettings.eq hreads
    have hsilent : ¬ TellTitle besideSettings {} := by decide +kernel
    have hdirectories : titleOf (directoryOf path) ≠ titleOf (directoryOf found) := by
      decide +kernel
    exact ⟨config, named, hconfig, hnamed, hvalues, hplaces hentry, fun heq =>
      (htitle.1 heq).elim hsilent hdirectories⟩

end WikiPress.Config
