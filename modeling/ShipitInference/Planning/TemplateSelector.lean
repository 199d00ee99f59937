import Mathlib.Algebra.Order.Field.Rat
import Mathlib.Data.List.Sort
import ShipitInference.Infer.RateLimit

/-! `selectTemplate`, which picks the template a new project starts from, with the model calls
as an oracle that may answer differently on every attempt. Scores are exact rationals.
-/

namespace Shipit.Inference.Planning

open Shipit.Inference.Js Shipit.Inference.Infer

-----------------------------------------------------------------------------------------
-- Templates and selections
-----------------------------------------------------------------------------------------

/-- `ProjectType`. -/
inductive ProjectType where
  | app
  | workflow
  | presentation
  | general
  deriving DecidableEq, Repr

/-- The type's name, as a template string prints it. -/
def ProjectType.name : ProjectType → String
  | .app => "app"
  | .workflow => "workflow"
  | .presentation => "presentation"
  | .general => "general"

/-- A value of the `projectType` argument, `ProjectType | 'auto'`; an absent one is `none`. -/
inductive RequestedType where
  | type (t : ProjectType)
  | auto
  deriving DecidableEq, Repr

/-- `manifest.quality_tier`. -/
inductive QualityTier where
  | production
  | starter
  | experimental
  deriving DecidableEq, Repr

/-- `TemplateCandidate`: the fields the selection reads; the others only reach prompts. -/
structure TemplateCandidate where
  name : String
  projectType : ProjectType
  disabled : Bool
  qualityTier : Option QualityTier
  deriving DecidableEq, Repr

/-- One result of the analysis call (`TemplateEvaluationSchema`): the template it rates, by
name, and the ratings the score reads.
-/
structure TemplateAnalysis where
  name : String
  domainMatch : ℚ
  capabilityMatch : ℚ
  uiFit : ℚ
  extensibility : ℚ
  conflictScore : ℚ

/-- The object the final model call answers (`TemplateSelectionSchema`). -/
structure SelectionAnswer where
  selectedTemplateName : Option String
  reasoning : String
  useCase : Option String
  complexity : Option String
  styleSelection : Option String
  deriving DecidableEq, Repr

/-- `TemplateSelection` as `selectTemplate` returns it. Its `projectType` holds what was
assigned to it: a project type, or the caller's argument, `'auto'` or `undefined`.
-/
structure TemplateSelection where
  selectedTemplateName : Option String
  reasoning : String
  useCase : Option String
  complexity : Option String
  styleSelection : Option String
  projectType : Option RequestedType
  deriving DecidableEq, Repr

/-- What a failing step throws, as far as the `catch` tells throws apart. -/
inductive SelectorError where
  | rateLimitExceeded
  | security
  | other
  deriving DecidableEq, Repr

/-- The answers of the model calls of one attempt: `decomposeIntent`, the project-type
prediction, the analysis, the judge's `winner` (a string or none) and the final selection.
-/
structure AttemptAnswers where
  intent : Except SelectorError Unit
  prediction : Except SelectorError ProjectType
  analyses : Except SelectorError (List TemplateAnalysis)
  judgeWinner : Except SelectorError (Option String)
  selection : Except SelectorError SelectionAnswer

-----------------------------------------------------------------------------------------
-- One attempt
-----------------------------------------------------------------------------------------

/-- `scoreTemplate(template, analysis)`. -/
def scoreTemplate (template : TemplateCandidate) (analysis : TemplateAnalysis) : ℚ :=
  let qualityMultiplier : ℚ :=
    match template.qualityTier with
    | some .production => 13 / 10
    | some .starter => 1
    | _ => 8 / 10
  let coreFit := analysis.domainMatch * 3 + analysis.capabilityMatch * 4 + analysis.uiFit * 2 +
    analysis.extensibility
  let conflictPenalty := analysis.conflictScore * 4
  coreFit * qualityMultiplier - conflictPenalty

/-- `predictProjectType`: the model's answer, or `app` when the call throws. -/
def predictProjectType (prediction : Except SelectorError ProjectType) : ProjectType :=
  match prediction with
  | .ok t => t
  | .error _ => .app

/-- Step 1: `projectType === 'auto' ? await predictProjectType(...) : projectType ?? 'app'`. -/
def resolveProjectType (requested : Option RequestedType)
    (prediction : Except SelectorError ProjectType) : ProjectType :=
  match requested with
  | some .auto => predictProjectType prediction
  | some (.type t) => t
  | none => .app

/-- Step 2: enabled, no `minimal` in the lower-cased name, and of the project's type unless that
is `general`. An ASCII lower-casing finds `minimal` exactly where `toLowerCase` does: no other
character lower-cases to one of its letters alone.
-/
def isCandidate (projectType : ProjectType) (t : TemplateCandidate) : Bool :=
  !t.disabled && !includes (asciiLower t.name) "minimal" &&
    (projectType = .general || t.projectType = projectType)

/-- A rated candidate with its score. -/
structure Scored where
  template : TemplateCandidate
  analysis : TemplateAnalysis
  score : ℚ

/-- Step 4: the candidates the analysis rates, with their scores, those with a conflict
rating below 4, best first (a stable sort, as `Array.prototype.sort` is).
-/
def scoreCandidates (candidates : List TemplateCandidate) (analyses : List TemplateAnalysis) :
    List Scored :=
  let rated := candidates.filterMap fun t =>
    (analyses.find? (·.name = t.name)).map fun a => ⟨t, a, scoreTemplate t a⟩
  (rated.filter (·.analysis.conflictScore < 4)).insertionSort fun a b => b.score ≤ a.score

/-- Step 5: when the two best scores are within 5, the judge's winner alone remains. -/
def judgeStep (scored : List Scored) (judgeWinner : Except SelectorError (Option String)) :
    Except SelectorError (List Scored) :=
  match scored with
  | first :: second :: _ =>
      if |first.score - second.score| < 5 then
        judgeWinner.map fun winner => if winner = some second.template.name then [second] else [first]
      else .ok scored
  | _ => .ok scored

/-- One pass through the `try` block of `selectTemplate`. The finalists of step 6 only reach
the prompt of the final call, whose answer is returned with the project type.
-/
def selectAttempt (requested : Option RequestedType) (available : List TemplateCandidate)
    (answers : AttemptAnswers) : Except SelectorError TemplateSelection := do
  answers.intent
  let projectType := resolveProjectType requested answers.prediction
  let candidates := available.filter (isCandidate projectType)
  match candidates with
  | [] =>
      return ⟨none, "No templates available for " ++ projectType.name, none, none, none,
        some (.type projectType)⟩
  | first :: others =>
      if (projectType = .workflow ∨ projectType = .presentation) ∧ others = [] then
        return ⟨some first.name, "Only viable template for this project type", some "General",
          some "simple", none, some (.type projectType)⟩
      else do
        let analyses ← answers.analyses
        match scoreCandidates candidates analyses with
        | [] =>
            return ⟨some first.name, "Fallback selection due to conflicts in all candidates", none,
              none, none, some (.type projectType)⟩
        | best :: rest =>
            let _ ← judgeStep (best :: rest) answers.judgeWinner
            let selection ← answers.selection
            return ⟨selection.selectedTemplateName, selection.reasoning, selection.useCase,
              selection.complexity, selection.styleSelection, some (.type projectType)⟩

-----------------------------------------------------------------------------------------
-- Retries
-----------------------------------------------------------------------------------------

/-- The selection after every retry failed: `projectType: projectType as ProjectType`. -/
def failedSelection (requested : Option RequestedType) : TemplateSelection :=
  ⟨none, "Template selection failed", none, none, none, requested⟩

/-- The `catch`: a rate limit or a security error is thrown again, anything else goes on. -/
def afterFailure (err : SelectorError) (otherwise : Except SelectorError TemplateSelection) :
    Except SelectorError TemplateSelection :=
  match err with
  | .rateLimitExceeded => .error .rateLimitExceeded
  | .security => .error .security
  | .other => otherwise

/-- `selectTemplate(args, retryCount)`, with `answers n` the answers of the attempt made with
`n` retries left.
-/
def selectTemplate (requested : Option RequestedType) (available : List TemplateCandidate)
    (answers : Nat → AttemptAnswers) : Nat → Except SelectorError TemplateSelection
  | 0 => (selectAttempt requested available (answers 0)).tryCatch fun err =>
      afterFailure err (.ok (failedSelection requested))
  | n + 1 => (selectAttempt requested available (answers (n + 1))).tryCatch fun err =>
      afterFailure err (selectTemplate requested available answers n)

-----------------------------------------------------------------------------------------
-- What an attempt and a run can return
-----------------------------------------------------------------------------------------

theorem isCandidate_iff (t : ProjectType) (c : TemplateCandidate) :
    isCandidate t c = true ↔ c.disabled = false ∧ includes (asciiLower c.name) "minimal" = false ∧
      (t = .general ∨ c.projectType = t) := by
  simp [isCandidate, and_assoc]

/-- What one attempt can return: a selection of the resolved type that names no template, a
template the filter kept, or whatever the final call chose.
-/
theorem selectAttempt_cases {requested : Option RequestedType} {available : List TemplateCandidate}
    {answers : AttemptAnswers} {sel : TemplateSelection}
    (h : selectAttempt requested available answers = .ok sel) :
    sel.projectType = some (.type (resolveProjectType requested answers.prediction)) ∧
      (sel.selectedTemplateName = none ∨
        (∃ c ∈ available, isCandidate (resolveProjectType requested answers.prediction) c ∧
          sel.selectedTemplateName = some c.name) ∨
        ∃ answer, answers.selection = .ok answer ∧
          sel.selectedTemplateName = answer.selectedTemplateName) := by
  unfold selectAttempt at h
  cases hi : answers.intent with
  | error e => rw [hi] at h; cases h
  | ok u =>
    rw [hi] at h
    dsimp only [bind, Except.bind] at h
    split at h
    case h_1 => cases h; exact ⟨rfl, .inl rfl⟩
    case h_2 first others kept =>
      have first_kept := List.mem_filter.1 (kept ▸ List.mem_cons_self first others)
      split at h
      · cases h; exact ⟨rfl, .inr (.inl ⟨first, first_kept.1, first_kept.2, rfl⟩)⟩
      · cases ha : answers.analyses with
        | error e => rw [ha] at h; cases h
        | ok analyses =>
          rw [ha] at h
          dsimp only at h
          split at h
          · cases h; exact ⟨rfl, .inr (.inl ⟨first, first_kept.1, first_kept.2, rfl⟩)⟩
          · split at h
            · cases h
            · split at h
              · cases h
              · rename_i answer chosen
                cases h; exact ⟨rfl, .inr (.inr ⟨answer, chosen, rfl⟩)⟩

/-- Every selection `selectTemplate` returns is one attempt's, or the give-up selection. -/
theorem selectTemplate_eq_ok {requested : Option RequestedType} {available : List TemplateCandidate}
    {answers : Nat → AttemptAnswers} :
    ∀ {retryCount : Nat} {sel : TemplateSelection},
      selectTemplate requested available answers retryCount = .ok sel →
      (∃ n, selectAttempt requested available (answers n) = .ok sel) ∨ sel = failedSelection requested
  | 0, sel, h => by
      simp only [selectTemplate] at h
      cases ha : selectAttempt requested available (answers 0) with
      | ok s => rw [ha] at h; cases h; exact .inl ⟨0, ha⟩
      | error e => rw [ha] at h; cases e <;> cases h; exact .inr rfl
  | n + 1, sel, h => by
      simp only [selectTemplate] at h
      cases ha : selectAttempt requested available (answers (n + 1)) with
      | ok s => rw [ha] at h; cases h; exact .inl ⟨n + 1, ha⟩
      | error e =>
          rw [ha] at h
          cases e
          case rateLimitExceeded => cases h
          case security => cases h
          case other => exact selectTemplate_eq_ok h

/-- When every attempt throws something other than a rate limit or a security error, the
selection gives up with the caller's `projectType`, whatever the retry count.
-/
theorem selectTemplate_of_attempts_fail {requested : Option RequestedType}
    {available : List TemplateCandidate} {answers : Nat → AttemptAnswers}
    (fails : ∀ n, selectAttempt requested available (answers n) = .error .other) :
    ∀ retryCount, selectTemplate requested available answers retryCount =
      .ok (failedSelection requested)
  | 0 => by simp only [selectTemplate, fails]; rfl
  | n + 1 => by
      simp only [selectTemplate, fails]
      exact selectTemplate_of_attempts_fail fails n

-----------------------------------------------------------------------------------------
-- Well-formed selections
-----------------------------------------------------------------------------------------

/-- What a `TemplateSelection` is meant to be: of one of the four project types, naming no
template or an available one that is enabled, has no `minimal` in its lower-cased name and has
the selection's type unless that is `general`.
-/
def WellFormedSelection (available : List TemplateCandidate) (selection : TemplateSelection) :
    Prop :=
  ∃ t, selection.projectType = some (.type t) ∧
    ∀ name, selection.selectedTemplateName = some name →
      ∃ c ∈ available, c.name = name ∧ c.disabled = false ∧
        includes (asciiLower c.name) "minimal" = false ∧ (t = .general ∨ c.projectType = t)

/-- An attempt for a given project type returns a well-formed selection when the final call
names no template or one the filter keeps.
-/
theorem selectAttempt_wellFormed {t : ProjectType} {available : List TemplateCandidate}
    {answers : AttemptAnswers} {sel : TemplateSelection}
    (chosen : ∀ answer, answers.selection = .ok answer → ∀ name,
      answer.selectedTemplateName = some name → ∃ c ∈ available, c.name = name ∧ isCandidate t c)
    (h : selectAttempt (some (.type t)) available answers = .ok sel) :
    WellFormedSelection available sel := by
  obtain ⟨typed, named⟩ := selectAttempt_cases h
  refine ⟨t, typed, fun name hname => ?_⟩
  rcases named with unnamed | ⟨c, mem, kept, hc⟩ | ⟨answer, answered, same⟩
  · rw [unnamed] at hname; cases hname
  · rw [hc] at hname; cases hname
    exact ⟨c, mem, rfl, (isCandidate_iff t c).1 kept⟩
  · obtain ⟨c, mem, rfl, kept⟩ := chosen answer answered name (same ▸ hname)
    exact ⟨c, mem, rfl, (isCandidate_iff t c).1 kept⟩

/-- A web app, a minimal web app and a workflow. -/
def sampleTemplates : List TemplateCandidate :=
  [⟨"react-app", .app, false, some .production⟩, ⟨"minimal-react", .app, false, some .starter⟩,
    ⟨"n8n-workflow", .workflow, false, none⟩]

/-- Attempts whose intent call answers a text that is not JSON, so that `JSON.parse` throws. -/
def unparsedIntent : AttemptAnswers :=
  ⟨.error .other, .ok .app, .ok [], .ok none, .error .other⟩

/-- Attempts that rate `react-app` alone and whose final call chooses `minimal-react`. -/
def strayChoice : AttemptAnswers :=
  ⟨.ok (), .ok .app, .ok [⟨"react-app", 4, 4, 4, 4, 0⟩], .ok none,
    .ok ⟨some "minimal-react", "Closest match", none, none, none⟩⟩

/-- The selection `strayChoice` leads to. -/
def straySelection : TemplateSelection :=
  ⟨some "minimal-react", "Closest match", none, none, none, some (.type .app)⟩

/-- Attempts that rate `react-app` alone and whose final call chooses it. -/
def reactAppChoice : AttemptAnswers :=
  { strayChoice with selection := .ok ⟨some "react-app", "Closest match", none, none, none⟩ }

/-- For a project type the caller gives, every selection `selectTemplate` returns is
well-formed, over every retry count and every behaviour of the model calls, provided the final
calls name no template or one the filter keeps: the give-up keeps the caller's type, and every
other way out names a filtered template or the final choice.
-/
theorem selectTemplate_wellFormed_of_typed {t : ProjectType} {available : List TemplateCandidate}
    {answers : Nat → AttemptAnswers}
    (chosen : ∀ n answer, (answers n).selection = .ok answer → ∀ name,
      answer.selectedTemplateName = some name → ∃ c ∈ available, c.name = name ∧ isCandidate t c)
    (retryCount : Nat) (sel : TemplateSelection)
    (returned : selectTemplate (some (.type t)) available answers retryCount = .ok sel) :
    WellFormedSelection available sel := by
  rcases selectTemplate_eq_ok returned with ⟨n, attempt⟩ | rfl
  · exact selectAttempt_wellFormed (chosen n) attempt
  · exact ⟨t, rfl, fun _ named => by cases named⟩

/-- A web app whose final call chooses `react-app`. -/
theorem selectTemplate_wellFormed_reactApp :
    WellFormedSelection sampleTemplates
      ⟨some "react-app", "Closest match", none, none, none, some (.type .app)⟩ :=
  @selectTemplate_wellFormed_of_typed .app sampleTemplates (fun _ => reactAppChoice)
    (fun _ answer answered name named => by
      cases answered; cases named
      exact ⟨_, List.mem_cons_self _ _, rfl, rfl⟩)
    3 _ rfl

/-- Two selections that are not well-formed: with `projectType: 'auto'` and an intent call that
never parses, the retries run out and the selection's type is `'auto'`; and the final call's
choice of a minimal template, which the filter had removed, is returned unchecked.
-/
theorem selectTemplate_returnsIllFormedSelections :
    selectTemplate (some .auto) sampleTemplates (fun _ => unparsedIntent) 3 =
        .ok (failedSelection (some .auto)) ∧
      ¬ WellFormedSelection sampleTemplates (failedSelection (some .auto)) ∧
      selectTemplate (some (.type .app)) sampleTemplates (fun _ => strayChoice) 3 =
        .ok straySelection ∧
      ¬ WellFormedSelection sampleTemplates straySelection := by
  refine ⟨@selectTemplate_of_attempts_fail (some .auto) sampleTemplates (fun _ => unparsedIntent)
    (fun _ => rfl) 3, ?_, rfl, ?_⟩
  · rintro ⟨t, typed, -⟩
    cases typed
  · rintro ⟨t, -, named⟩
    obtain ⟨c, mem, named, -, minimal, -⟩ := named "minimal-react" rfl
    simp only [sampleTemplates, List.mem_cons, List.mem_singleton, List.not_mem_nil, or_false] at mem
    rcases mem with rfl | rfl | rfl <;> revert named minimal <;> decide

end Shipit.Inference.Planning
