import RatelPlatform.SharedKernel
import RatelPlatform.Transaction
import Mathlib.Data.List.Sort
import Mathlib.Data.List.MinMax

/-!
# The approval workflow

The shared framework behind every approval-gated item: a chain of steps, the
progress of one item along its chain, and the engine that admits a decision
(separation of duties, then the role of the current step).

The engine knows nothing of the store it runs on: it is given the query for the
roles of a user, and is a transaction program like the handlers that call it.
-/

namespace RatelPlatform

/-- Where the role a step asks for has to be held. -/
inductive ApprovalScope where
  | department
  | organization
  deriving DecidableEq

/-- One step of a chain. -/
structure ApprovalStep where
  order : ℕ
  requiredRole : RoleName
  requiredScope : ApprovalScope
  deriving DecidableEq

/-- Anything with an approval-gated lifecycle. -/
structure Approvable where
  id : Id
  organizationId : Id
  departmentId : Option Id
  requesterId : Id
  amountMinorUnits : ℤ

/-! ## Chains -/

/-- A chain of steps, always in step order: `of` is the only way to build one
from steps. -/
structure ApprovalChain where
  steps : List ApprovalStep
  sorted : steps.Pairwise fun a b => a.order ≤ b.order

namespace ApprovalChain

@[ext] theorem ext {a b : ApprovalChain} (h : a.steps = b.steps) : a = b := by
  cases a
  cases b
  cases h
  rfl

/-- `ApprovalChain.of` sorts the steps (stably). -/
def of (steps : List ApprovalStep) : ApprovalChain where
  steps := steps.insertionSort fun a b => a.order ≤ b.order
  sorted := by
    have : Std.Total fun a b : ApprovalStep => a.order ≤ b.order := ⟨fun a b => Nat.le_total _ _⟩
    have : IsTrans ApprovalStep fun a b => a.order ≤ b.order := ⟨fun _ _ _ => Nat.le_trans⟩
    exact List.pairwise_insertionSort _ steps

/-- `isEmpty` -/
def isEmpty (c : ApprovalChain) : Bool := c.steps.isEmpty

/-- The step with a given order. -/
def stepAt (c : ApprovalChain) (order : ℕ) : Option ApprovalStep :=
  c.steps.find? fun s => s.order = order

/-- The order is the largest of the chain (an empty chain has none, as
`Math.max()` is `-Infinity`). -/
def isLastStep (c : ApprovalChain) (order : ℕ) : Bool :=
  decide ((c.steps.map ApprovalStep.order).maximum = WithBot.some order)

/-- A stored chain reads back as itself. -/
theorem of_steps (c : ApprovalChain) : of c.steps = c := by
  ext1
  exact List.Pairwise.insertionSort_eq c.sorted

/-- The steps are numbered 1 to n. -/
def Numbered (c : ApprovalChain) : Prop :=
  c.steps.map ApprovalStep.order = List.range' 1 c.steps.length

instance (c : ApprovalChain) : Decidable c.Numbered := inferInstanceAs (Decidable (_ = _))

theorem Numbered.order_eq {c : ApprovalChain} (h : c.Numbered) {i : ℕ} {s : ApprovalStep}
    (hs : c.steps[i]? = some s) : s.order = i + 1 := by
  have hi : (c.steps.map ApprovalStep.order)[i]? = some s.order := by
    rw [List.getElem?_map, hs]
    rfl
  have hlt : i < c.steps.length := (List.getElem?_eq_some_iff.mp hs).1
  rw [h, List.getElem?_range' hlt] at hi
  have := Option.some.inj hi
  omega

/-- On a numbered chain, looking a step up is indexing. -/
theorem Numbered.stepAt_eq {c : ApprovalChain} (h : c.Numbered) (i : ℕ) :
    c.stepAt (i + 1) = c.steps[i]? := by
  simp only [stepAt]
  rcases hs : c.steps[i]? with _ | s
  · rw [List.find?_eq_none]
    intro s hmem
    obtain ⟨j, hj⟩ := List.getElem?_of_mem hmem
    have hlen := List.getElem?_eq_none_iff.mp hs
    have hlt := (List.getElem?_eq_some_iff.mp hj).1
    have := h.order_eq hj
    simp only [decide_eq_true_eq]
    omega
  · obtain ⟨hi, hget⟩ := List.getElem?_eq_some_iff.mp hs
    rw [List.find?_eq_some_iff_getElem]
    refine ⟨by simpa using h.order_eq hs, i, hi, hget, fun j hj => ?_⟩
    have := h.order_eq (List.getElem?_eq_getElem (Nat.lt_trans hj hi))
    simp only [Bool.not_eq_eq_eq_not, Bool.not_true, decide_eq_false_iff_not]
    omega

/-- On a numbered chain the last step is the n-th. -/
theorem Numbered.isLastStep_iff {c : ApprovalChain} (h : c.Numbered) (i : ℕ) :
    c.isLastStep (i + 1) = true ↔ i + 1 = c.steps.length := by
  simp only [isLastStep]
  rw [decide_eq_true_iff, h, List.maximum_eq_coe_iff]
  refine ⟨?_, ?_⟩
  · rintro ⟨hmem, hmax⟩
    rw [List.mem_range'_1] at hmem
    have := hmax c.steps.length (List.mem_range'_1.mpr (by omega))
    omega
  · intro hi
    refine ⟨List.mem_range'_1.mpr (by omega), fun a ha => ?_⟩
    have := List.mem_range'_1.mp ha
    omega

end ApprovalChain

/-! ## Progress -/

/-- What an approver decided. -/
inductive Decision where
  | approved
  | rejected
  deriving DecidableEq

/-- A decision on a step. -/
structure ApprovalRecord where
  stepOrder : ℕ
  approverId : Id
  decidedAt : JsDate
  decision : Decision
  reason : Option String
  deriving DecidableEq

/-- The progress of an item along its chain. -/
structure ApprovalProgress where
  itemId : Id
  chain : ApprovalChain
  records : List ApprovalRecord

namespace ApprovalProgress

/-- No decision yet. -/
def start (itemId : Id) (chain : ApprovalChain) : ApprovalProgress := ⟨itemId, chain, []⟩

/-- The step the next decision is about. -/
def currentStepOrder (p : ApprovalProgress) : ℕ := p.records.length + 1

/-- The current step, if the chain still has one. -/
def currentStepRequirement (p : ApprovalProgress) : Option ApprovalStep :=
  p.chain.stepAt p.currentStepOrder

/-- Some earlier step was approved by this person. -/
def ApprovedBy (p : ApprovalProgress) (approverId : Id) : Prop :=
  ∃ r ∈ p.records, r.decision = .approved ∧ r.approverId = approverId

instance (p : ApprovalProgress) (approverId : Id) : Decidable (p.ApprovedBy approverId) :=
  inferInstanceAs (Decidable (∃ r ∈ p.records, _))

/-- Appends an approval of the current step; says whether it was the last. -/
def recordApproval (p : ApprovalProgress) (approverId : Id) (now : JsDate) :
    Except Failure (ApprovalProgress × Bool) :=
  match p.chain.stepAt p.currentStepOrder with
  | none => .error (.domain (.noSuchApprovalStep p.itemId p.currentStepOrder))
  | some _ =>
    .ok ({ p with records := p.records ++ [⟨p.currentStepOrder, approverId, now, .approved, none⟩] },
      p.chain.isLastStep p.currentStepOrder)

/-- Appends a rejection of the current step. -/
def recordRejection (p : ApprovalProgress) (approverId : Id) (reason : String) (now : JsDate) :
    ApprovalProgress :=
  { p with records := p.records ++ [⟨p.currentStepOrder, approverId, now, .rejected, some reason⟩] }

theorem recordApproval_ok {p p' : ApprovalProgress} {approverId : Id} {now : JsDate} {final : Bool} :
    p.recordApproval approverId now = .ok (p', final) ↔
      (∃ step, p.currentStepRequirement = some step) ∧
        p' = { p with
          records := p.records ++ [⟨p.currentStepOrder, approverId, now, .approved, none⟩] } ∧
        final = p.chain.isLastStep p.currentStepOrder := by
  simp only [recordApproval, currentStepRequirement]
  rcases p.chain.stepAt p.currentStepOrder with _ | step
  · simp
  · simp [eq_comm]

end ApprovalProgress

/-! ## The engine -/

/-- A role a user holds: in a department, or in the whole organization. -/
structure RoleAssignment where
  role : RoleName
  departmentId : Option Id
  organizationId : Id

/-- Two department ids that are both there, and equal: a missing one (`null` of
an organization-wide role, `undefined` of an item without a department) matches
nothing. -/
def SameDepartment : Option Id → Option Id → Prop
  | some a, some b => a = b
  | _, _ => False

instance : (a b : Option Id) → Decidable (SameDepartment a b)
  | some a, some b => inferInstanceAs (Decidable (a = b))
  | none, _ => isFalse id
  | some _, none => isFalse id

/-- Some of the roles fits the step, in the item's department if the step is
department-scoped. -/
def HoldsRequiredRole (step : ApprovalStep) (departmentId : Option Id)
    (roles : List RoleAssignment) : Prop :=
  ∃ r ∈ roles, r.role = step.requiredRole ∧
    (step.requiredScope ≠ .department ∨ SameDepartment r.departmentId departmentId)

instance (step : ApprovalStep) (departmentId : Option Id) (roles : List RoleAssignment) :
    Decidable (HoldsRequiredRole step departmentId roles) :=
  inferInstanceAs (Decidable (∃ r ∈ roles, _))

namespace WorkflowEngine

variable {D K : Type} (getRolesForUser : Id → Tx D K Failure (List RoleAssignment))

/-- The approver holds the role of the current step; nothing to check when the
chain has no such step. -/
def assertHoldsCurrentStepRole (item : Approvable) (progress : ApprovalProgress)
    (approverId : Id) : Tx D K Failure Unit :=
  match progress.currentStepRequirement with
  | none => pure ()
  | some step => do
    let approverRoles ← getRolesForUser approverId
    .require (HoldsRequiredRole step item.departmentId approverRoles)
      (.domain (.approverRoleMismatch approverId step.requiredRole))

/-- Admits an approval: not by the requester, not twice by one person, and only
with the role of the current step. -/
def recordApproval (item : Approvable) (progress : ApprovalProgress) (approverId : Id)
    (now : JsDate) : Tx D K Failure (ApprovalProgress × Bool) := do
  .require (item.requesterId ≠ approverId) (.domain (.selfApprovalNotAllowed item.id approverId))
  .require (¬ progress.ApprovedBy approverId)
    (.domain (.duplicateApproverInChain item.id approverId))
  assertHoldsCurrentStepRole getRolesForUser item progress approverId
  .ofExcept (progress.recordApproval approverId now)

/-- Admits a rejection: not by the requester, and only with the role of the
current step. -/
def recordRejection (item : Approvable) (progress : ApprovalProgress) (approverId : Id)
    (reason : String) (now : JsDate) : Tx D K Failure ApprovalProgress := do
  .require (item.requesterId ≠ approverId) (.domain (.selfRejectionNotAllowed item.id approverId))
  assertHoldsCurrentStepRole getRolesForUser item progress approverId
  pure (progress.recordRejection approverId reason now)

variable {getRolesForUser} {roles : Id → D → List RoleAssignment}

/-- The role check passes when every current step there is fits the roles. -/
theorem assertHoldsCurrentStepRole_ok
    (hroles : ∀ u d, (getRolesForUser u).solo d = .ok (roles u d, d))
    {item : Approvable} {progress : ApprovalProgress} {approverId : Id} {d d' : D} {a : Unit} :
    (assertHoldsCurrentStepRole getRolesForUser item progress approverId).solo d = .ok (a, d') ↔
      (∀ step, progress.currentStepRequirement = some step →
        HoldsRequiredRole step item.departmentId (roles approverId d)) ∧ d' = d := by
  simp only [assertHoldsCurrentStepRole]
  rcases progress.currentStepRequirement with _ | step
  · simp [eq_comm]
  · simp only [Tx.solo_bind_ok, hroles, Tx.solo_require_ok]
    refine ⟨?_, ?_⟩
    · rintro ⟨_, _, h, hr, rfl⟩
      cases h
      exact ⟨fun _ hs => Option.some.inj hs ▸ hr, rfl⟩
    · rintro ⟨h, rfl⟩
      exact ⟨_, _, rfl, h step rfl, rfl⟩

/-- **What an admitted approval means.** -/
theorem recordApproval_ok (hroles : ∀ u d, (getRolesForUser u).solo d = .ok (roles u d, d))
    {item : Approvable} {progress p' : ApprovalProgress} {approverId : Id} {now : JsDate}
    {final : Bool} {d d' : D} :
    (recordApproval getRolesForUser item progress approverId now).solo d = .ok ((p', final), d') ↔
      item.requesterId ≠ approverId ∧ ¬ progress.ApprovedBy approverId ∧
        (∃ step, progress.currentStepRequirement = some step ∧
          HoldsRequiredRole step item.departmentId (roles approverId d)) ∧
        p' = { progress with records :=
          progress.records ++ [⟨progress.currentStepOrder, approverId, now, .approved, none⟩] } ∧
        final = progress.chain.isLastStep progress.currentStepOrder ∧ d' = d := by
  simp only [recordApproval]
  simp only [Tx.solo_bind_ok, Tx.solo_require_ok, Tx.solo_ofExcept_ok,
    assertHoldsCurrentStepRole_ok hroles, ApprovalProgress.recordApproval_ok]
  refine ⟨?_, ?_⟩
  · rintro ⟨_, _, ⟨hself, rfl⟩, _, _, ⟨hdup, rfl⟩, _, _, ⟨hrole, rfl⟩, ⟨⟨step, hstep⟩, hp, hfin⟩, rfl⟩
    exact ⟨hself, hdup, ⟨step, hstep, hrole step hstep⟩, hp, hfin, rfl⟩
  · rintro ⟨hself, hdup, ⟨step, hstep, hrole⟩, hp, hfin, rfl⟩
    refine ⟨(), _, ⟨hself, rfl⟩, (), _, ⟨hdup, rfl⟩, (), _, ⟨fun s hs => ?_, rfl⟩,
      ⟨⟨step, hstep⟩, hp, hfin⟩, rfl⟩
    rw [hstep] at hs
    exact Option.some.inj hs ▸ hrole

/-- **What an admitted rejection means.** -/
theorem recordRejection_ok (hroles : ∀ u d, (getRolesForUser u).solo d = .ok (roles u d, d))
    {item : Approvable} {progress p' : ApprovalProgress} {approverId : Id} {reason : String}
    {now : JsDate} {d d' : D} :
    (recordRejection getRolesForUser item progress approverId reason now).solo d = .ok (p', d') ↔
      item.requesterId ≠ approverId ∧
        (∀ step, progress.currentStepRequirement = some step →
          HoldsRequiredRole step item.departmentId (roles approverId d)) ∧
        p' = progress.recordRejection approverId reason now ∧ d' = d := by
  simp only [recordRejection]
  simp only [Tx.solo_bind_ok, Tx.solo_require_ok, assertHoldsCurrentStepRole_ok hroles, Tx.pure_eq,
    Tx.solo_ret, Except.ok.injEq, Prod.mk.injEq]
  refine ⟨?_, ?_⟩
  · rintro ⟨_, _, ⟨hself, rfl⟩, _, _, ⟨hrole, rfl⟩, rfl, rfl⟩
    exact ⟨hself, hrole, rfl, rfl⟩
  · rintro ⟨hself, hrole, rfl, rfl⟩
    exact ⟨(), _, ⟨hself, rfl⟩, (), _, ⟨hrole, rfl⟩, rfl, rfl⟩

end WorkflowEngine

end RatelPlatform
