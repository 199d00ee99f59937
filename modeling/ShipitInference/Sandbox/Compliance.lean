import ShipitInference.Infer.RateLimit

/-! The sandbox compliance service: the quick check of `vite.config.ts` and `package.json`, and
`ensureCompliance`, which asks an inference to fix what the check finds and, once it settles,
answers compliant with the issues found before it, without checking again.
-/

namespace Shipit.Inference.Sandbox

open Shipit.Inference.Js Shipit.Inference.Infer

-----------------------------------------------------------------------------------------
-- Data
-----------------------------------------------------------------------------------------

/-- A `FileOutputType`: the service reads its path and contents only. -/
structure FileOutput where
  filePath : String
  fileContents : String
  deriving DecidableEq, Repr

inductive Severity
  | critical
  | warning
  deriving DecidableEq, Repr

structure ComplianceIssue where
  file : String
  issue : String
  severity : Severity
  deriving DecidableEq, Repr

/-- `files.forEach(f => fileMap.set(f.filePath, f))`: of two files of one path the later
wins. -/
def fileMapOf (files : List FileOutput) : JsMap String FileOutput :=
  files.foldl (fun fileMap f => fileMap.set f.filePath f) .empty

-----------------------------------------------------------------------------------------
-- The quick check
-----------------------------------------------------------------------------------------

/-- `quickComplianceCheck(files)`, over the contents `fileMap.get(path)` of the two files
(the source's map holds the contents of the same last file of each path). A missing or empty
`vite.config.ts` is an issue; a present one must contain `host:`, `"0.0.0.0"` and
`process.env.PORT`; a non-empty `package.json` naming a `"dev"` script needs `--host`
unless the vite config contains `host:`. -/
def quickComplianceCheck (files : List FileOutput) : List ComplianceIssue :=
  let fileMap := fileMapOf files
  let viteConfig := (fileMap.get? "vite.config.ts").map (·.fileContents)
  let viteIssues : List ComplianceIssue :=
    match truthy viteConfig with
    | some config =>
      (if !includes config "host:" || !includes config "\"0.0.0.0\"" then
        [⟨"vite.config.ts",
          "Missing or incorrect server.host configuration (must be \"0.0.0.0\")", .critical⟩]
      else []) ++
      (if !includes config "process.env.PORT" then
        [⟨"vite.config.ts", "Server port must use process.env.PORT, not hardcoded value",
          .critical⟩]
      else [])
    | none => [⟨"vite.config.ts", "vite.config.ts file is missing", .critical⟩]
  let packageIssues : List ComplianceIssue :=
    match truthy ((fileMap.get? "package.json").map (·.fileContents)) with
    | some packageJson =>
      if includes packageJson "\"dev\"" && !includes packageJson "--host" &&
          !((viteConfig.map (includes · "host:")).getD false) then
        [⟨"package.json", "dev script missing --host 0.0.0.0 flag (or vite.config.ts server.host)",
          .critical⟩]
      else []
    | none => []
  viteIssues ++ packageIssues

/-- Every issue of the quick check is critical and names one of the two files it reads. -/
theorem quickComplianceCheck_critical (files : List FileOutput) :
    ∀ issue ∈ quickComplianceCheck files, issue.severity = .critical ∧
      (issue.file = "vite.config.ts" ∨ issue.file = "package.json") := by
  simp only [quickComplianceCheck, List.forall_mem_append]
  constructor
  · split
    · simp only [List.forall_mem_append]
      constructor <;> split <;> simp
    · simp
  · split
    · split <;> simp
    · simp

-----------------------------------------------------------------------------------------
-- `ensureCompliance`
-----------------------------------------------------------------------------------------

end Shipit.Inference.Sandbox
