import BuildMend.FixLoop
import BuildMend.Proofs.Text.Trim

/-!
What is left of a set-up that is made anew with another limit.

* `IsBare`: the names that have neither blanks around them nor a provider; `modelName_eq_self_iff` says that
  these are the names that a second reading does not shorten.
* `Persists`: a name that is chosen once is the same when it is read a second time.
* `AssistantProfile.withLimit_keeps_iff`: another limit keeps all of a set-up but its models, and keeps a model
  exactly if its name persists.

The set-up is made anew from values that were shortened already.  So a name loses what it begins with a second
time, and where nothing is left of it the environment or the default steps in.
-/

namespace BuildMend

open Number Text

/-! ### Names of models -/

/-- A name without blanks around it and, in whatever letters, without a provider. -/
def IsBare (name : String) : Prop :=
  IsTrimmed name.toList ∧ ¬provider <+: name.toList.map Char.toLower

instance (name : String) : Decidable (IsBare name) :=
  inferInstanceAs (Decidable (IsTrimmed _ ∧ ¬_))

/-- A name that begins with a provider becomes shorter. -/
lemma modelName_of_provider {name : String} (h : provider <+: (trim name.toList).map Char.toLower) :
    modelName name = String.ofList ((trim name.toList).drop provider.length) :=
  if_pos (List.isPrefixOf_iff_prefix.mpr h)

lemma modelName_of_no_provider {name : String}
    (h : ¬provider <+: (trim name.toList).map Char.toLower) :
    modelName name = String.ofList (trim name.toList) :=
  if_neg (by rwa [List.isPrefixOf_iff_prefix])

/-- The names that are read as they are: only those have nothing to lose. -/
theorem modelName_eq_self_iff {name : String} : modelName name = name ↔ IsBare name := by
  constructor
  · intro h
    by_cases hprovider : provider <+: (trim name.toList).map Char.toLower
    · rw [modelName_of_provider hprovider] at h
      have hshort := congrArg (fun s : String => s.toList.length) h
      have hprefix := hprovider.length_le
      have htrim := length_trim_le name.toList
      have hpos : 0 < provider.length := by decide
      simp only [String.toList_ofList, List.length_drop, List.length_map] at hshort hprefix
      omega
    · rw [modelName_of_no_provider hprovider] at h
      have htrim := congrArg String.toList h
      rw [String.toList_ofList] at htrim
      rw [htrim] at hprovider
      exact ⟨trim_eq_self_iff.mp htrim, hprovider⟩
  · rintro ⟨htrimmed, hprovider⟩
    have htrim := trim_eq_self_iff.mpr htrimmed
    rw [modelName_of_no_provider (by rwa [htrim]), htrim, String.ofList_toList]

/-- A name stays the same when it is read a second time: what is left of it at first is bare, and if nothing
is left, nothing is left of the name that steps in. -/
def Persists (name fallback : String) : Prop :=
  IsBare (modelName name) ∧ (modelName name = "" → modelName fallback = "")

instance (name fallback : String) : Decidable (Persists name fallback) :=
  inferInstanceAs (Decidable (_ ∧ (_ → _)))

/-! ### Values that are given -/

lemma firstGiven_of_empty (rest : List (Option String)) :
    firstGiven (some "" :: rest) = firstGiven rest := rfl

lemma firstGiven_of_ne {s : String} (h : s ≠ "") (rest : List (Option String)) :
    firstGiven (some s :: rest) = some s :=
  if_neg (by simpa using h)

lemma ne_of_firstGiven {values : List (Option String)} {s : String} (h : firstGiven values = some s) :
    s ≠ "" := by
  induction values with
  | nil => cases h
  | cons value rest ih =>
    cases value with
    | none => exact ih h
    | some t =>
      by_cases ht : t = ""
      · rw [ht, firstGiven_of_empty] at h
        exact ih h
      · rw [firstGiven_of_ne ht] at h
        exact Option.some.inj h ▸ ht

/-- A value that was given, or else is not empty, is given again. -/
lemma firstGiven_again {values : List (Option String)} {fallback : String} (h : fallback ≠ "")
    (rest : List (Option String)) :
    firstGiven (some ((firstGiven values).getD fallback) :: rest) =
      some ((firstGiven values).getD fallback) := by
  refine firstGiven_of_ne ?_ rest
  cases hgiven : firstGiven values with
  | none => exact h
  | some s => exact ne_of_firstGiven hgiven

/-- A value in which the environment fills a gap is the same when the gap is filled again. -/
lemma firstGiven_or_again (value environment : Option String) :
    (firstGiven [(firstGiven [value]).or environment]).or environment =
      (firstGiven [value]).or environment := by
  cases hgiven : firstGiven [value] with
  | some s => rw [Option.some_or, firstGiven_of_ne (ne_of_firstGiven hgiven), Option.some_or]
  | none =>
    rw [Option.none_or]
    cases environment with
    | none => rfl
    | some s =>
      by_cases hs : s = ""
      · rw [hs, firstGiven_of_empty]
        rfl
      · rw [firstGiven_of_ne hs, Option.some_or]

/-! ### Another limit -/

namespace AssistantProfile

/-- The name that is given for a model: the chosen one, or that of the environment, or the default. -/
def givenName (chosen environment : Option String) (default : String) : String :=
  (firstGiven [chosen, environment]).getD default

/-- A name that is read a second time: where nothing is left of it another one steps in. -/
lemma modelName_again_eq_iff (name default : String) (environment : Option String) :
    modelName (givenName (some (modelName name)) environment default) = modelName name ↔
      Persists name (givenName none environment default) := by
  rw [Persists, ← modelName_eq_self_iff, givenName]
  by_cases h : modelName name = ""
  · have hempty : modelName "" = "" := modelName_eq_self_iff.mpr (by decide)
    rw [h, firstGiven_of_empty, hempty]
    exact ⟨fun hfallback => ⟨rfl, fun _ => hfallback⟩, fun hboth => hboth.2 rfl⟩
  · rw [firstGiven_of_ne h]
    exact ⟨fun hname => ⟨hname, fun hempty => absurd hempty h⟩, fun hboth => hboth.1⟩

section Parts

variable (env? : String → Option String) (c : AssistantChoices) (p : AssistantProfile)
  (limit : Option Amount)

lemma model_ofChoices :
    (ofChoices env? c).model =
      modelName (givenName c.model (env? "CODEGEN_ASSISTANT_MODEL") defaultModel) := by
  rw [ofChoices, givenName]

lemma searchModel_ofChoices :
    (ofChoices env? c).searchModel =
      modelName (givenName c.searchModel (env? "CODEGEN_SPEC_SEARCH_MODEL") defaultSearchModel) := by
  rw [ofChoices, givenName]

lemma model_withLimit :
    (p.withLimit env? limit).model =
      modelName (givenName (some p.model) (env? "CODEGEN_ASSISTANT_MODEL") defaultModel) := by
  rw [withLimit, model_ofChoices]

lemma searchModel_withLimit :
    (p.withLimit env? limit).searchModel =
      modelName
        (givenName (some p.searchModel) (env? "CODEGEN_SPEC_SEARCH_MODEL") defaultSearchModel) := by
  rw [withLimit, searchModel_ofChoices]

/-- The sessions of a run work with the set-up that has the limit of the run. -/
lemma model_session (project : Path) (settings : FixSettings) (streams : Bool) (directory : String) :
    (Session.forFixes (Mender.ofSettings env? project settings p streams).assistant streams
      directory).options.model = (p.withLimit env? settings.assistantLimit).model := by
  rw [Session.options, Session.forFixes, Mender.ofSettings]

end Parts

/-- Another limit changes nothing of a set-up but its models, and keeps each of them exactly if the name that
was given for it persists.  So do the sessions of a run, whose set-up always gets the limit of the run. -/
theorem withLimit_keeps_iff (env? : String → Option String) (c : AssistantChoices)
    (limit : Option Amount) :
    let profile := ofChoices env? c
    let renewed := profile.withLimit env? limit
    let model := env? "CODEGEN_ASSISTANT_MODEL"
    let searchModel := env? "CODEGEN_SPEC_SEARCH_MODEL"
    let modelPersists :=
      Persists (givenName c.model model defaultModel) (givenName none model defaultModel)
    renewed.limit = limit ∧ renewed.cliPath = profile.cliPath ∧
      renewed.permissionMode = profile.permissionMode ∧
      (renewed.model = profile.model ↔ modelPersists) ∧
      (renewed.searchModel = profile.searchModel ↔
        Persists (givenName c.searchModel searchModel defaultSearchModel)
          (givenName none searchModel defaultSearchModel)) ∧
      ∀ (project : Path) (settings : FixSettings) (streams : Bool) (directory : String),
        let mender := Mender.ofSettings env? project settings profile streams
        (Session.forFixes mender.assistant streams directory).options.model = profile.model ↔
          modelPersists := by
  intro profile renewed model searchModel modelPersists
  have hmodel (limit : Option Amount) :
      (profile.withLimit env? limit).model = profile.model ↔ modelPersists := by
    rw [model_withLimit, model_ofChoices]
    exact modelName_again_eq_iff _ _ _
  have hsearch : renewed.searchModel = profile.searchModel ↔
      Persists (givenName c.searchModel searchModel defaultSearchModel)
        (givenName none searchModel defaultSearchModel) := by
    rw [searchModel_withLimit, searchModel_ofChoices]
    exact modelName_again_eq_iff _ _ _
  have hmode : renewed.permissionMode = profile.permissionMode := by
    show (firstGiven [some profile.permissionMode, _]).getD "acceptEdits" = profile.permissionMode
    rw [show firstGiven [some profile.permissionMode, _] = some profile.permissionMode from
      firstGiven_again (by decide) _]
    rfl
  refine ⟨rfl, firstGiven_or_again _ _, hmode, hmodel limit, hsearch, ?_⟩
  intro project settings streams directory mender
  rw [model_session]
  exact hmodel settings.assistantLimit

/-- A name loses a second provider with the new limit; and where nothing is left of a name the default steps
in. -/
theorem withLimit_other_models :
    let twice := ofChoices (fun _ => none) { model := some "anthropic/anthropic/claude-x" }
    let bare := ofChoices (fun _ => none) { model := some "anthropic/" }
    twice.model = "anthropic/claude-x" ∧
      (twice.withLimit (fun _ => none) none).model = "claude-x" ∧
      bare.model = "" ∧ (bare.withLimit (fun _ => none) none).model = defaultModel := by
  decide +kernel

end AssistantProfile

end BuildMend
