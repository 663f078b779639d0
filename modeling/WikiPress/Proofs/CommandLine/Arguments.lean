import Mathlib.Data.List.Nodup
import WikiPress.CommandLine.Arguments

/-!
# WikiPress.Proofs.CommandLine.Arguments

A page can be asked for with the options any command line gives to all commands.

Design points:

* Readers only ever add options with `give`, so what that keeps holds of all that is given
  (`readTrailing_keeps`, `readLeading_keeps`). Paths that are given are not empty.
* An option is read back if it is written with its name and its value in one argument
  (`readOption_written`). No value looks like an option then.
-/

namespace WikiPress.CommandLine

/-! ## What is given -/

theorem bind_eq_ok {ε α β : Type} {first : Except ε α} {next : α → Except ε β} {answer : β}
    (h : first >>= next = .ok answer) : ∃ value, first = .ok value ∧ next value = .ok answer := by
  cases first with
  | error e => cases h
  | ok value => exact ⟨value, rfl, h⟩

/-- Whether giving any of some options keeps what is given as it should be. -/
def GivingKeeps (specs : List OptionSpec) (P : Given → Prop) : Prop :=
  ∀ spec ∈ specs, ∀ value given after, give spec value given = .ok after → P given → P after

section Keeps

variable {specs : List OptionSpec} {P : Given → Prop} {spec : OptionSpec} {given after : Given}
  {rest left : List String} (hgive : GivingKeeps specs P)

include hgive

theorem give_keeps (hspec : spec ∈ specs) {value : String}
    (h : (give spec value given).map (·, rest) = .ok (after, left)) (hp : P given) : P after := by
  cases hgiven : give spec value given with
  | error stop => rw [hgiven] at h; cases h
  | ok added =>
      rw [hgiven] at h
      cases h
      exact hgive spec hspec value given after hgiven hp

theorem giveNext_keeps (hspec : spec ∈ specs) (h : giveNext spec given rest = .ok (after, left))
    (hp : P given) : P after := by
  unfold giveNext at h
  split at h
  · split at h
    · cases h
    · exact give_keeps hgive hspec h hp
  · cases h

theorem readNamed_keeps {body : List Char} (h : readNamed specs given body rest = .ok (after, left))
    (hp : P given) : P after := by
  unfold readNamed at h
  dsimp only at h
  split at h
  · cases h
  · next spec hfound =>
      have hspec := List.mem_of_find?_eq_some hfound
      split at h
      · cases h
      · cases h
      · exact give_keeps hgive hspec h hp
      · exact giveNext_keeps hgive hspec h hp
      · exact giveNext_keeps hgive hspec h hp
      · exact give_keeps hgive hspec h hp
      · exact give_keeps hgive hspec h hp
      · cases h

theorem readLetters_keeps {letters : List Char}
    (h : readLetters specs given rest letters = .ok (after, left)) (hp : P given) : P after := by
  induction letters generalizing given with
  | nil =>
      cases h
      exact hp
  | cons c more ih =>
      unfold readLetters at h
      split at h
      · cases h
      · next spec hfound =>
          have hspec := List.mem_of_find?_eq_some hfound
          split at h
          · cases h
          · cases h
          -- a flag is given, and letters may follow
          · split at h
            · next added hadded => exact ih h (hgive spec hspec "" given added hadded hp)
            · cases h
          all_goals
            split at h
            · exact giveNext_keeps hgive hspec h hp
            · exact give_keeps hgive hspec h hp
            · exact give_keeps hgive hspec h hp

theorem readOption_keeps {argument : String}
    (h : readOption specs given argument rest = .ok (after, left)) (hp : P given) : P after := by
  unfold readOption at h
  split at h
  · exact readNamed_keeps hgive h hp
  · exact readLetters_keeps hgive h hp
  · cases h

theorem readTrailing_keeps {fuel : Nat} {arguments operands : List String}
    (h : readTrailing specs fuel given arguments = .ok (after, operands)) (hp : P given) :
    P after := by
  induction fuel generalizing given arguments operands with
  | zero => cases h
  | succ fuel ih =>
      cases arguments with
      | nil =>
          cases h
          exact hp
      | cons argument rest =>
          unfold readTrailing at h
          split at h
          · cases h
            exact hp
          split at h
          · obtain ⟨read, hread, hrest⟩ := bind_eq_ok h
            exact ih hrest (readOption_keeps hgive hread hp)
          · obtain ⟨read, hread, hrest⟩ := bind_eq_ok h
            cases hrest
            exact ih hread hp

end Keeps

theorem readLeading_keeps {P : Given → Prop} (hgive : GivingKeeps leadingOptions P)
    {given after : Given} {fuel : Nat} {arguments rest : List String} {name : String}
    (h : readLeading fuel given arguments = .ok (after, name, rest)) (hp : P given) : P after := by
  induction fuel generalizing given arguments with
  | zero => cases h
  | succ fuel ih =>
      cases arguments with
      | nil => cases h
      | cons argument more =>
          unfold readLeading at h
          split at h
          · cases h
          split at h
          · obtain ⟨read, hread, hrest⟩ := bind_eq_ok h
            exact ih hrest (readOption_keeps hgive hread hp)
          · cases h
            exact hp

/-- The options that name a file or a directory. -/
def pathOptions : List String := ["config", "source-dir", "state-file", "out-dir"]

/-- Whether no path that is given is empty. -/
def NamesPaths (given : Given) : Prop := ∀ name ∈ pathOptions, given.lookup name ≠ some ""

theorem namesPaths_give {specs : List OptionSpec}
    (hspecs : ∀ spec ∈ specs, spec.name ∈ pathOptions → spec.kind = .path) :
    GivingKeeps specs NamesPaths := by
  intro spec hspec value given after h hgiven name hname
  unfold give at h
  split at h
  · cases h
  split at h
  · cases h
  · next hvalue =>
      cases h
      rw [List.lookup_cons]
      split
      · next hsame =>
          rw [beq_iff_eq] at hsame
          intro hempty
          exact hvalue ⟨hspecs spec hspec (hsame ▸ hname), by rw [Option.some.inj hempty]; rfl⟩
      · exact hgiven name hname

theorem kind_of_commandOptions {name : String} {specs : List OptionSpec} {count : Nat}
    (h : commandOptions name = some (specs, count)) :
    ∀ spec ∈ specs, spec.name ∈ pathOptions → spec.kind = .path := by
  unfold commandOptions at h
  split at h
  · cases h
    decide
  · cases h
    decide
  · cases h
    decide
  · cases h

/-- Whether a command line can give these to a command. -/
structure Givable (configPath : Option String) (overrides : Config.Overrides) : Prop where
  config : configPath ≠ some ""
  sourceDirectory : overrides.sourceDirectory ≠ some ""
  stateFile : overrides.stateFile ≠ some ""
  outDirectory : overrides.outDirectory ≠ some ""
  hardLineBreak : overrides.hardLineBreak ≠ some false

/-- A command line gives no empty path. -/
theorem givable_of_parse {arguments : List String} {invocation : Invocation}
    (h : parse arguments = .ok invocation) :
    Givable invocation.configPath invocation.overrides := by
  have hnone : NamesPaths [] := fun name _ => by simp
  obtain ⟨⟨leading, name, rest⟩, hleading, hcommand⟩ := bind_eq_ok h
  have hfront := readLeading_keeps (namesPaths_give (by decide)) hleading hnone
  dsimp only at hcommand
  split at hcommand
  · split at hcommand
    · cases hcommand
    · cases hcommand
  · next specs count hspecs =>
      obtain ⟨⟨trailing, operands⟩, htrailing, hoperands⟩ := bind_eq_ok hcommand
      have hback := readTrailing_keeps (namesPaths_give (kind_of_commandOptions hspecs)) htrailing
        hnone
      have hpath : ∀ option ∈ pathOptions, (trailing ++ leading).lookup option ≠ some "" := by
        intro option hoption hempty
        rw [List.lookup_append, Option.or_eq_some_iff] at hempty
        rcases hempty with hempty | ⟨-, hempty⟩
        · exact hback option hoption hempty
        · exact hfront option hoption hempty
      dsimp only at hoperands
      split at hoperands
      · cases hoperands
      obtain ⟨command, -, hinvocation⟩ := bind_eq_ok hoperands
      cases hinvocation
      exact ⟨hpath _ (by decide), hpath _ (by decide), hpath _ (by decide), hpath _ (by decide),
        by simp⟩

/-! ## Writing a command line -/

/-- An option as it is written, with its value behind an equals sign. -/
def OptionSpec.written (spec : OptionSpec) (value : String) : String :=
  "--" ++ spec.name ++ if spec.kind = .flag then "" else "=" ++ value

/-- Whether an option is one of some and can be written with a value. -/
structure Fits (specs : List OptionSpec) (spec : OptionSpec) (value : String) : Prop where
  known : specs.find? (·.name = spec.name) = some spec
  named : spec.name ≠ ""
  plain : '=' ∉ spec.name.toList
  kind : (spec.kind = .flag ∧ value = "") ∨ spec.kind = .text ∨ (spec.kind = .path ∧ value ≠ "")

section Written

variable {specs : List OptionSpec} {spec : OptionSpec} {value : String} {given : Given}

/-- What is written is read. -/
theorem readOption_written (h : Fits specs spec value) (hnew : given.lookup spec.name = none)
    (rest : List String) :
    readOption specs given (spec.written value) rest = .ok ((spec.name, value) :: given, rest) := by
  have hknown : specs.find? (·.name = String.ofList spec.name.toList) = some spec := by
    rw [String.ofList_toList]
    exact h.known
  have hgive : give spec value given = .ok ((spec.name, value) :: given) := by
    rw [give, if_neg (by simp [hnew]), if_neg]
    rintro ⟨hpath, hempty⟩
    rcases h.kind with ⟨hkind, -⟩ | hkind | ⟨-, hvalue⟩
    · cases hkind.symm.trans hpath
    · cases hkind.symm.trans hpath
    · exact hvalue (String.isEmpty_iff.1 hempty)
  have hname : ∀ c ∈ spec.name.toList, decide (c ≠ '=') = true := fun c hc =>
    decide_eq_true fun heq => h.plain (heq ▸ hc)
  have hsplit : ∀ more : List Char, (spec.name.toList ++ more).takeWhile (· ≠ '=')
      = spec.name.toList ++ more.takeWhile (· ≠ '=') := fun _ =>
    List.takeWhile_append_of_pos hname
  by_cases hflag : spec.kind = .flag
  · obtain rfl : value = "" := by
      rcases h.kind with ⟨-, hvalue⟩ | hkind | ⟨hkind, -⟩
      · exact hvalue
      · cases hflag.symm.trans hkind
      · cases hflag.symm.trans hkind
    have htext : (spec.written "").toList = '-' :: '-' :: spec.name.toList := by
      simp [OptionSpec.written, hflag]
    have hbody : spec.name.toList.takeWhile (· ≠ '=') = spec.name.toList := by
      simpa using hsplit []
    simp only [readOption, htext, readNamed, hbody, if_true, hknown, hflag, hgive]
    rfl
  · have htext : (spec.written value).toList
        = '-' :: '-' :: (spec.name.toList ++ '=' :: value.toList) := by
      simp [OptionSpec.written, hflag]
    have hbody : (spec.name.toList ++ '=' :: value.toList).takeWhile (· ≠ '=')
        = spec.name.toList := by
      rw [hsplit]
      simp
    have hattached : String.ofList ((spec.name.toList ++ '=' :: value.toList).drop
        (spec.name.toList.length + 1)) = value := by
      rw [List.drop_append]
      simp
    have hlength :
        ¬ spec.name.toList.length = (spec.name.toList ++ '=' :: value.toList).length := by
      simp
    simp only [readOption, htext, readNamed, hbody, if_neg hlength, hattached, hknown]
    rcases h.kind with ⟨hkind, -⟩ | hkind | ⟨hkind, -⟩
    · exact absurd hkind hflag
    · simp only [hkind, hgive]
      rfl
    · simp only [hkind, hgive]
      rfl

theorem isOption_written (h : Fits specs spec value) :
    isOption (spec.written value) = true ∧ spec.written value ≠ "--" := by
  obtain ⟨c, more, hname⟩ := List.exists_cons_of_ne_nil
    (fun hnil => h.named (String.toList_eq_nil_iff.1 hnil))
  obtain ⟨more, htext⟩ : ∃ more, (spec.written value).toList = '-' :: '-' :: c :: more := by
    refine ⟨more ++ (if spec.kind = .flag then "" else "=" ++ value).toList, ?_⟩
    simp [OptionSpec.written, hname]
  refine ⟨?_, fun heq => ?_⟩
  · have hne : spec.written value ≠ "-" := by
      rintro heq
      rw [heq] at htext
      cases htext
    simp [isOption, htext, hne]
  · rw [heq] at htext
    cases htext

end Written

/-- Options that were written are read up to the end of the options. -/
theorem readTrailing_written {specs : List OptionSpec} {given : Given} (operands : List String)
    {options : List (OptionSpec × String)}
    (hfits : ∀ option ∈ options, Fits specs option.1 option.2)
    (hdistinct : options.Pairwise fun a b => a.1.name ≠ b.1.name)
    (hnew : ∀ option ∈ options, given.lookup option.1.name = none) {fuel : Nat}
    (hfuel : options.length < fuel) :
    ∃ after, readTrailing specs fuel given
          (options.map (fun option => option.1.written option.2) ++ "--" :: operands)
        = .ok (after, operands)
      ∧ (∀ option ∈ options, after.lookup option.1.name = some option.2)
      ∧ ∀ name, (∀ option ∈ options, option.1.name ≠ name) →
        after.lookup name = given.lookup name := by
  induction options generalizing given fuel with
  | nil =>
      obtain ⟨fuel, rfl⟩ := Nat.exists_eq_succ_of_ne_zero (Nat.ne_zero_of_lt hfuel)
      exact ⟨given, by simp [readTrailing], by simp, fun _ _ => rfl⟩
  | cons option rest ih =>
      obtain ⟨fuel, rfl⟩ := Nat.exists_eq_succ_of_ne_zero (Nat.ne_zero_of_lt hfuel)
      obtain ⟨hfirst, hfits⟩ := List.forall_mem_cons.1 hfits
      obtain ⟨hother, hdistinct⟩ := List.pairwise_cons.1 hdistinct
      obtain ⟨hfree, hnew⟩ := List.forall_mem_cons.1 hnew
      obtain ⟨hoption, hend⟩ := isOption_written hfirst
      have hadded : ∀ name, option.1.name ≠ name →
          List.lookup name ((option.1.name, option.2) :: given) = given.lookup name := by
        intro name hne
        rw [List.lookup_cons, beq_eq_false_iff_ne.2 hne.symm]
      obtain ⟨after, hread, hgiven, hothers⟩ := ih hfits hdistinct
        (fun later hlater => (hadded _ (hother later hlater)).trans (hnew later hlater))
        (Nat.lt_of_succ_lt_succ hfuel)
      refine ⟨after, ?_, List.forall_mem_cons.2 ⟨?_, hgiven⟩, fun name hname => ?_⟩
      · rw [List.map_cons, List.cons_append, readTrailing, if_neg hend, if_pos hoption,
          readOption_written hfirst hfree]
        exact hread
      · rw [hothers _ fun later hlater => (hother later hlater).symm, List.lookup_cons,
          beq_self_eq_true]
      · obtain ⟨hne, hname⟩ := List.forall_mem_cons.1 hname
        rw [hothers name hname, hadded name hne]

/-- What is asked for when a page is to be rendered: the options, each with its value if it is
given one. -/
def renderChoices (parentTitle : String) (configPath : Option String)
    (overrides : Config.Overrides) : List (OptionSpec × Option String) :=
  [(⟨"parent-title", none, .text⟩, some parentTitle), (⟨"config", some 'c', .path⟩, configPath),
    (⟨"source-dir", none, .path⟩, overrides.sourceDirectory),
    (⟨"state-file", none, .path⟩, overrides.stateFile),
    (⟨"out-dir", none, .path⟩, overrides.outDirectory),
    (⟨"hard-line-break", none, .flag⟩, overrides.hardLineBreak.map fun _ => "")]

/-- The options that are given values. -/
def chosen (choices : List (OptionSpec × Option String)) : List (OptionSpec × String) :=
  choices.filterMap fun choice => choice.2.map (choice.1, ·)

theorem mem_chosen {choices : List (OptionSpec × Option String)} {option : OptionSpec × String} :
    option ∈ chosen choices ↔ (option.1, some option.2) ∈ choices := by
  rw [chosen, List.mem_filterMap]
  constructor
  · rintro ⟨⟨spec, value⟩, hmem, hvalue⟩
    obtain ⟨value, rfl, rfl⟩ := Option.map_eq_some_iff.1 hvalue
    exact hmem
  · exact fun hmem => ⟨_, hmem, rfl⟩

/-- The command line that asks for the page of a file. -/
def renderArguments (path parentTitle : String) (configPath : Option String)
    (overrides : Config.Overrides) : List String :=
  "render" :: ((chosen (renderChoices parentTitle configPath overrides)).map
    (fun option => option.1.written option.2) ++ ["--", path])

/-- Choices among the options of a command are read as they are. -/
theorem readTrailing_chosen {specs : List OptionSpec} (operands : List String)
    {choices : List (OptionSpec × Option String)}
    (hfits : ∀ choice ∈ choices, ∀ value, choice.2 = some value → Fits specs choice.1 value)
    (hdistinct : (choices.map (·.1.name)).Nodup) {fuel : Nat}
    (hfuel : (chosen choices).length < fuel) :
    ∃ after, readTrailing specs fuel []
          ((chosen choices).map (fun option => option.1.written option.2) ++ "--" :: operands)
        = .ok (after, operands)
      ∧ (∀ choice ∈ choices, after.lookup choice.1.name = choice.2)
      ∧ ∀ name, (∀ choice ∈ choices, choice.1.name ≠ name) → after.lookup name = none := by
  have hpairwise : (chosen choices).Pairwise fun a b => a.1.name ≠ b.1.name := by
    refine List.pairwise_filterMap.2 ((List.pairwise_map.1 hdistinct).imp fun hne => ?_)
    rintro a ha b hb
    obtain ⟨value, -, rfl⟩ := Option.map_eq_some_iff.1 ha
    obtain ⟨other, -, rfl⟩ := Option.map_eq_some_iff.1 hb
    exact hne
  have hchosen : ∀ option ∈ chosen choices, Fits specs option.1 option.2 :=
    fun option hmem => hfits _ (mem_chosen.1 hmem) _ rfl
  have hnew : ∀ option ∈ chosen choices, List.lookup option.1.name ([] : Given) = none :=
    fun _ _ => rfl
  obtain ⟨after, hread, hgiven, hothers⟩ := readTrailing_written operands hchosen hpairwise
    hnew hfuel
  refine ⟨after, hread, ?_, fun name hname =>
    hothers name fun option hmem => hname _ (mem_chosen.1 hmem)⟩
  rintro ⟨spec, value⟩ hmem
  cases value with
  | some value => exact hgiven (spec, value) (mem_chosen.2 hmem)
  | none =>
      refine hothers _ fun option hoption hsame => ?_
      have heq := List.inj_on_of_nodup_map hdistinct (mem_chosen.1 hoption) hmem hsame
      cases heq

/-- The options a page can be rendered with. -/
def renderOptions : List OptionSpec :=
  ⟨"parent-title", none, .text⟩ :: ⟨"index", none, .flag⟩ :: commonOptions

theorem fits_renderChoices (parentTitle : String) {configPath : Option String}
    {overrides : Config.Overrides} (h : Givable configPath overrides) :
    ∀ choice ∈ renderChoices parentTitle configPath overrides, ∀ value,
      choice.2 = some value → Fits renderOptions choice.1 value := by
  have hpath : ∀ {setting : Option String}, setting ≠ some "" → ∀ value, setting = some value →
      value ≠ "" := by
    rintro _ hne value rfl rfl
    exact hne rfl
  simp only [renderChoices, List.forall_mem_cons]
  refine ⟨fun _ _ => ?_, fun value hvalue => ?_, fun value hvalue => ?_, fun value hvalue => ?_,
    fun value hvalue => ?_, fun value hvalue => ?_, by simp⟩
  · exact ⟨by decide, by decide, by decide, .inr (.inl rfl)⟩
  · exact ⟨by decide, by decide, by decide, .inr (.inr ⟨rfl, hpath h.config value hvalue⟩)⟩
  · exact ⟨by decide, by decide, by decide,
      .inr (.inr ⟨rfl, hpath h.sourceDirectory value hvalue⟩)⟩
  · exact ⟨by decide, by decide, by decide, .inr (.inr ⟨rfl, hpath h.stateFile value hvalue⟩)⟩
  · exact ⟨by decide, by decide, by decide, .inr (.inr ⟨rfl, hpath h.outDirectory value hvalue⟩)⟩
  · obtain ⟨_, -, rfl⟩ := Option.map_eq_some_iff.1 hvalue
    exact ⟨by decide, by decide, by decide, .inl ⟨rfl, rfl⟩⟩

/-- A page can be asked for with all that can be given to any command. -/
theorem parse_renderArguments {path : String} (hpath : path ≠ "") (parentTitle : String)
    {configPath : Option String} {overrides : Config.Overrides}
    (h : Givable configPath overrides) :
    parse (renderArguments path parentTitle configPath overrides)
      = .ok ⟨.render path parentTitle false, configPath, overrides, false⟩ := by
  have hnames : (renderChoices parentTitle configPath overrides).map (·.1.name)
      = ["parent-title", "config", "source-dir", "state-file", "out-dir", "hard-line-break"] := rfl
  have hdistinct : ((renderChoices parentTitle configPath overrides).map (·.1.name)).Nodup := by
    rw [hnames]
    decide
  have hother : ∀ name, name ∉ (renderChoices parentTitle configPath overrides).map (·.1.name) →
      ∀ choice ∈ renderChoices parentTitle configPath overrides, choice.1.name ≠ name :=
    fun name hname choice hmem heq => hname (List.mem_map.2 ⟨choice, hmem, heq⟩)
  rw [hnames] at hother
  have hfuel : (chosen (renderChoices parentTitle configPath overrides)).length
      < ((chosen (renderChoices parentTitle configPath overrides)).map
        (fun option => option.1.written option.2) ++ ["--", path]).length + 1 := by
    simp only [List.length_append, List.length_map]
    omega
  obtain ⟨after, hread, hchoices, hothers⟩ := readTrailing_chosen [path]
    (fits_renderChoices parentTitle h) hdistinct hfuel
  have hindex := hothers "index" (hother _ (by decide))
  have hverbose := hothers "verbose" (hother _ (by decide))
  simp only [renderChoices, List.forall_mem_cons] at hchoices
  obtain ⟨htitle, hconfig, hsource, hstate, hout, hbreak, -⟩ := hchoices
  have hleading : readLeading ((renderArguments path parentTitle configPath overrides).length + 1)
      [] (renderArguments path parentTitle configPath overrides)
        = .ok ([], "render", (chosen (renderChoices parentTitle configPath overrides)).map
          (fun option => option.1.written option.2) ++ ["--", path]) := by
    rw [renderArguments, List.length_cons, readLeading, if_neg (by decide), if_neg (by decide)]
  have hcommand : commandOf "render" after [path] = .ok (.render path parentTitle false) := by
    rw [commandOf, if_neg (by simp [hpath]), htitle, hindex]
    rfl
  have hspecs : commandOptions "render" = some (renderOptions, 1) := rfl
  rw [parse, hleading]
  simp only [bind, Except.bind, hspecs, hread, hcommand, List.append_nil, hconfig, hsource,
    hstate, hout, hbreak, hverbose, List.length_singleton, Nat.lt_irrefl, if_false]
  have hset : (overrides.hardLineBreak.map fun _ => "").map (fun _ => true)
      = overrides.hardLineBreak := by
    rcases hgiven : overrides.hardLineBreak with _ | _ | _
    · rfl
    · exact absurd hgiven h.hardLineBreak
    · rfl
  rw [hset]
  rfl

end WikiPress.CommandLine
