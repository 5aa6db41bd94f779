import QualityCI.Lineage.Derivation
import QualityCI.Orchestration.SourceRooted

/-!
# The run of a derived case

The engine evaluates the case of a context with the references and the assurance of that context,
and in the end compares the hash of the case that was run with the one the lineages lead to.  The
comparison looks at nothing new: every lineage of a derived context names its root and the lineage
before it, starts from the case that one ended in, and is hashed over its own fields, and the case
has the last hash.

How a validation context is prepared from its bytes for a case is given.

* `LineageContext.run`, `sourceBundleRun`, `evaluateSourceBundle` — `_evaluate_case_source_bundle`,
  without its last assertion and with it.
* `LineageInvariant` — what holds of every derived context.
* **`deriveAll_lineageInvariant`** — whatever the sequence of changes; and the assertion never
  fails.
-/

namespace QualityCI

open Py

section Contexts

variable [PyUnicode]

/-! ## The engine -/

/-- The validation context of a case, if there is a bundle to prepare it from. -/
def preparedValidation (validation : Option (Dict → Result ValidationContext)) (case : Dict) :
    Result (Option ValidationContext) :=
  match validation with
  | none => .ok none
  | some prepare => do
      let context ← prepare case
      .ok (some context)

/-- The run of the case of a context. -/
def LineageContext.run (c : LineageContext)
    (validation : Option (Dict → Result ValidationContext)) : Result RunResult := do
  let case ← c.case
  let validationContext ← preparedValidation validation case
  evaluateSourceRooted case c.referenceContext c.assurance validationContext

/-- The context of a root, mutated if there is a mutation. -/
def mutatedContext (root : LineageContext) : Option Bytes → Result LineageContext
  | none => .ok root
  | some raw => deriveCaseSourceMutation root raw

/-- `_evaluate_case_source_bundle`, up to its last assertion: the context and the run. -/
def sourceBundleRun (build : CaseSourceBundle → Result BuiltCase) (bundle : CaseSourceBundle)
    (validation : Option (Dict → Result ValidationContext)) (mutation : Option Bytes) :
    Result (LineageContext × RunResult) := do
  let root ← prepareCaseSourceContext build bundle
  let context ← mutatedContext root mutation
  let run ← context.run validation
  .ok (context, run)

/-- `_evaluate_case_source_bundle`. -/
def evaluateSourceBundle (build : CaseSourceBundle → Result BuiltCase) (bundle : CaseSourceBundle)
    (validation : Option (Dict → Result ValidationContext)) (mutation : Option Bytes) :
    Result (LineageContext × RunResult) := do
  let (context, run) ← sourceBundleRun build bundle validation mutation
  ensure (run.caseHash = terminalCaseHash context.rootCaseHash context.lineages)
    "source-assured Run differs from rebuilt terminal Case"
  .ok (context, run)

/-! ## The invariant, link by link -/

/-- The context `c` is derived from the root: its lineages name the root and each other, start each
from the case that the one before ends in, and have the hashes of their fields; the case has the
last hash; and the sources are those of the root. -/
structure LineageInvariant (root c : LineageContext) : Prop where
  bindings : ∀ l ∈ c.lineages, l.rootBindingHash = root.caseSourceBindingHash
  first : ∀ l, c.lineages.head? = some l →
    l.parentLineageHash = none ∧ l.inputCaseHash = root.rootCaseHash
  later : ∀ (i : ℕ) (l next : CaseSourceLineage), c.lineages[i]? = some l →
    c.lineages[i + 1]? = some next →
    next.parentLineageHash = some l.lineageHash ∧ next.inputCaseHash = l.outputCaseHash
  lineageHash : ∀ l ∈ c.lineages,
    domainDigest sourceLineageDomain (.obj l.core) = .ok l.lineageHash
  materialHash : ∀ l ∈ c.lineages, ∃ material : Dict,
    loads ⟨true⟩ l.operationMaterialJson = .ok (.obj material) ∧
    dumps (.obj material) = .ok l.operationMaterialJson ∧
    domainDigest (operationDomain l.operationKind) (.obj material) = .ok l.operationMaterialHash
  case : ∃ case, c.case = .ok case ∧
    canonicalHash (.obj case) = .ok (terminalCaseHash root.rootCaseHash c.lineages)
  sources : SameRoot root c

omit [PyUnicode] in
/-- What comes before the next lineage ends in the one before it. -/
lemma getLast?_take_succ {lineages : List CaseSourceLineage} {i : ℕ} {l : CaseSourceLineage}
    (h : lineages[i]? = some l) : (lineages.take (i + 1)).getLast? = some l := by
  rw [List.take_add_one, h, Option.toList_some, List.getLast?_concat]

/-- A consistent context of a root. -/
lemma ConsistentContext.lineageInvariant {root c : LineageContext} (hc : ConsistentContext c)
    (hsame : SameRoot root c) : LineageInvariant root c where
  bindings l hl := (hc.each l hl).root.trans hsame.binding
  first l hl := by
    rw [List.head?_eq_getElem?] at hl
    have hparent : l.parentLineageHash = HashChain.tip lineageNaming (c.lineages.take 0) :=
      hc.chain.parent_of_get hl
    have hinput := hc.inputs 0 l hl
    rw [hsame.rootCase] at hinput
    exact ⟨hparent, hinput⟩
  later i l next hl hnext := by
    have hlast := getLast?_take_succ hl
    have hparent : next.parentLineageHash =
        HashChain.tip lineageNaming (c.lineages.take (i + 1)) := hc.chain.parent_of_get hnext
    have hinput := hc.inputs (i + 1) next hnext
    rw [HashChain.tip, hlast] at hparent
    rw [terminalCaseHash, hlast] at hinput
    exact ⟨hparent, hinput⟩
  lineageHash l hl := (hc.each l hl).hash
  materialHash l hl := by
    obtain ⟨material, hwf, hjson, hhash, -⟩ := (hc.each l hl).material
    exact ⟨material, loads_dumps ⟨true⟩ hwf hjson, hjson, hhash⟩
  case := by
    obtain ⟨case, hcase, -, -, hhash⟩ := hc.case
    exact ⟨case, hcase, hsame.rootCase ▸ hhash⟩
  sources := hsame

/-! ## The assertion -/

/-- The case of a run has the hash that the lineages lead to. -/
lemma ConsistentContext.run_caseHash {c : LineageContext} (hc : ConsistentContext c)
    {validation : Option (Dict → Result ValidationContext)} {run : RunResult}
    (h : c.run validation = .ok run) :
    run.caseHash = terminalCaseHash c.rootCaseHash c.lineages := by
  obtain ⟨case, hcase, -, haccepted, hhash⟩ := hc.case
  simp only [LineageContext.run, evaluateSourceRooted, hcase, ok_bind, bind_eq_ok, exists_unit,
    Except.ok.injEq] at h
  obtain ⟨context, -, -, unbound, hunbound, runId, -, -, rfl⟩ := h
  obtain ⟨hevaluate, -⟩ :=
    (runCaseWithReferenceContext_eq_ok (prepareCase_current haccepted)).mp hunbound
  obtain ⟨plan, -, f, printed, -, caseHash, hcaseHash, _, -, rfl⟩ :=
    evaluatePrepared_eq_ok.mp hevaluate
  exact Except.ok.inj (hcaseHash.symm.trans hhash)

/-- So the assertion changes nothing. -/
lemma evaluateSourceBundle_eq (build : CaseSourceBundle → Result BuiltCase)
    (bundle : CaseSourceBundle) (validation : Option (Dict → Result ValidationContext))
    (mutation : Option Bytes) :
    evaluateSourceBundle build bundle validation mutation =
      sourceBundleRun build bundle validation mutation := by
  unfold evaluateSourceBundle
  cases hrun : sourceBundleRun build bundle validation mutation with
  | error e => rfl
  | ok pair =>
      obtain ⟨c, run⟩ := pair
      simp only [sourceBundleRun, bind_eq_ok, Except.ok.injEq, Prod.mk.injEq] at hrun
      obtain ⟨root, hroot, context, hcontext, _, hrun, rfl, rfl⟩ := hrun
      obtain ⟨hconsistent, -, -⟩ := prepareCaseSourceContext_consistent hroot
      have hc : ConsistentContext context := by
        cases mutation with
        | none => exact Except.ok.inj hcontext ▸ hconsistent
        | some raw => exact (deriveCaseSourceMutation_consistent hconsistent hcontext).1
      rw [ok_bind]
      exact bind_eq_ok.mpr ⟨(), ensure_eq_ok.mpr (hc.run_caseHash hrun), rfl⟩

/-- **The lineages of a derived context.**  Whatever sequence of mutations and native replays leads
from a root to a context: its lineages name the root and form a chain from its case to their own,
hashed over what is stored of them; the sources are those of the root; and the case that is run has
the hash that the engine compares it with, so that its assertion never fails. -/
theorem deriveAll_lineageInvariant {build : CaseSourceBundle → Result BuiltCase}
    {bundle : CaseSourceBundle} {steps : List DerivationStep} {root c : LineageContext}
    (hroot : prepareCaseSourceContext build bundle = .ok root)
    (hderive : deriveAll root steps = .ok c) :
    LineageInvariant root c ∧
      (∀ validation run, c.run validation = .ok run →
        run.caseHash = terminalCaseHash root.rootCaseHash c.lineages) ∧
      ∀ validation mutation, evaluateSourceBundle build bundle validation mutation =
        sourceBundleRun build bundle validation mutation := by
  obtain ⟨hconsistent, -, -⟩ := prepareCaseSourceContext_consistent hroot
  obtain ⟨hc, hsame, -⟩ := deriveAll_adds hconsistent hderive
  exact ⟨hc.lineageInvariant hsame,
    fun validation run hrun => (hc.run_caseHash hrun).trans (by rw [hsame.rootCase]),
    evaluateSourceBundle_eq build bundle⟩

/-- The case of a consistent context is run when its evaluation returns. -/
lemma ConsistentContext.run_returns {c : LineageContext} (hc : ConsistentContext c) {case : Dict}
    (hcase : c.case = .ok case)
    (hcontexts : AttestedContexts (assuranceOf (some c.referenceContext) none))
    (h : (evaluateCase case (some c.referenceContext) none).toOption.isSome = true) :
    ∃ run, c.run none = .ok run := by
  obtain ⟨evaluated, hevaluated⟩ := exists_ok_of_isSome h
  obtain ⟨input, hsame, -, haccepted, -⟩ := hc.case
  obtain rfl := Except.ok.inj (hcase.symm.trans hsame)
  obtain ⟨run, hrun, -⟩ :=
    evaluateSourceRooted_returns haccepted hc.assurance_valid hcontexts hevaluated
  refine ⟨run, ?_⟩
  rw [LineageContext.run, hcase, ok_bind, preparedValidation, ok_bind]
  exact hrun

end Contexts

section Ascii

attribute [local instance] asciiUnicode

theorem deriveAll_lineageInvariant_flow : ∃ root c run evaluated,
    prepareCaseSourceContext (fun _ => .ok sampleBuilt) sampleBundle = .ok root ∧
    deriveAll root sampleSteps = .ok c ∧ LineageInvariant root c ∧ c.lineages.length = 3 ∧
    c.run none = .ok run ∧ run.caseHash = terminalCaseHash root.rootCaseHash c.lineages ∧
    evaluateSourceBundle (fun _ => .ok sampleBuilt) sampleBundle none
      (some (ownerMutationBytes "M-2" "PE")) = .ok evaluated := by
  obtain ⟨root, c, hroot, hderive, hstands⟩ := sampleSteps_derive
  obtain ⟨hinvariant, hcaseHash, hassertion⟩ := deriveAll_lineageInvariant hroot hderive
  have hlength : c.lineages.length = 3 := by
    have hdigests := congrArg List.length hstands.lineages
    rwa [List.length_map] at hdigests
  obtain ⟨run, hrun⟩ := hstands.consistent.run_returns hstands.case
    (by rw [hstands.references]; exact ⟨by decide +kernel, by decide +kernel⟩)
    (by rw [hstands.references]; decide +kernel)
  -- the engine's own call, with the first mutation
  obtain ⟨root', c₁, -, hroot', hfirst, hstands₁, -⟩ := sampleMutations_derive
  obtain rfl := Except.ok.inj (hroot.symm.trans hroot')
  obtain ⟨run₁, hrun₁⟩ := hstands₁.consistent.run_returns hstands₁.case
    (by rw [hstands₁.references]; exact ⟨by decide +kernel, by decide +kernel⟩)
    (by rw [hstands₁.references]; decide +kernel)
  refine ⟨root, c, run, (c₁, run₁), hroot, hderive, hinvariant, hlength, hrun,
    hcaseHash none run hrun, ?_⟩
  rw [hassertion]
  simp only [sourceBundleRun, mutatedContext, hroot, hfirst, hrun₁, ok_bind]

end Ascii

end QualityCI
