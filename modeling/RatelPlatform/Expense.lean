import RatelPlatform.Workflow

/-!
# Expenses

The expense aggregate: created as a draft, submitted, approved, rejected or
cancelled, and corrected by adjustments; with the two policies that say which
chain of approvals an amount needs and whether an adjustment needs one.
-/

namespace RatelPlatform

/-- The status of an expense. -/
inductive ExpenseStatus where
  | draft
  | pendingApproval
  | approved
  | rejected
  | cancelled
  | closed
  deriving DecidableEq

/-- The name of a status. -/
def ExpenseStatus.name : ExpenseStatus → String
  | draft => "draft"
  | pendingApproval => "pending_approval"
  | approved => "approved"
  | rejected => "rejected"
  | cancelled => "cancelled"
  | closed => "closed"

/-- How an expense came in. -/
inductive ExpenseSourceType where
  | manual
  | employee
  | accountant
  | import
  | integration
  deriving DecidableEq

/-- The name of a source type. -/
def ExpenseSourceType.name : ExpenseSourceType → String
  | manual => "manual"
  | employee => "employee"
  | accountant => "accountant"
  | .import => "import"
  | integration => "integration"

/-- Where an expense comes from, and who acted. -/
structure ExpenseSource where
  type : ExpenseSourceType
  actorId : Id
  importJobId : Option Id
  deriving DecidableEq

/-- The columns of an expense, apart from its key. -/
structure ExpenseRow where
  organizationId : Id
  expenseNumber : String
  status : ExpenseStatus
  source : ExpenseSource
  amount : Money
  categoryId : Id
  vendorId : Option Id
  departmentId : Id
  projectId : Option Id
  periodId : Id
  parentExpenseId : Option Id
  adjustmentReason : Option String
  expenseDate : JsDate
  description : Option String
  createdAt : JsDate
  updatedAt : JsDate
  deriving DecidableEq

/-- The properties of an expense. -/
structure ExpenseProps extends ExpenseRow where
  id : Id
  deriving DecidableEq

/-- An expense with the events recorded on it. -/
structure Expense where
  props : ExpenseProps
  domainEvents : List DomainEvent

/-! ## Events -/

/-- A source in an event payload; a missing import job leaves no key. -/
def ExpenseSource.value (s : ExpenseSource) : PayloadValue :=
  .object ([("type", .text s.type.name), ("actorId", .id s.actorId)] ++
    (s.importJobId.map fun job => ("importJobId", PayloadValue.id job)).toList)

/-- An event of an expense. -/
def expenseEvent (type : String) (id organizationId : Id)
    (payload : List (String × PayloadValue)) : DomainEvent :=
  ⟨type, "Expense", id, ("organizationId", .id organizationId) :: payload⟩

/-- `expenseDrafted` -/
def expenseDrafted (id organizationId : Id) (source : ExpenseSource) : DomainEvent :=
  expenseEvent "ExpenseDrafted" id organizationId [("source", source.value)]

/-- `expenseSubmittedForApproval` -/
def expenseSubmittedForApproval (id organizationId : Id) : DomainEvent :=
  expenseEvent "ExpenseSubmittedForApproval" id organizationId []

/-- `expenseApproved` -/
def expenseApproved (id organizationId : Id) (approverId : Actor) : DomainEvent :=
  expenseEvent "ExpenseApproved" id organizationId [("approverId", approverId.value)]

/-- `expenseRejected` -/
def expenseRejected (id organizationId approverId : Id) (reason : String) : DomainEvent :=
  expenseEvent "ExpenseRejected" id organizationId
    [("approverId", .id approverId), ("reason", .text reason)]

/-- `expenseCancelled` -/
def expenseCancelled (id organizationId actorId : Id) : DomainEvent :=
  expenseEvent "ExpenseCancelled" id organizationId [("actorId", .id actorId)]

/-- `expenseAdjustmentCreated` -/
def expenseAdjustmentCreated (adjustmentId organizationId parentExpenseId : Id)
    (reason : String) : DomainEvent :=
  expenseEvent "ExpenseAdjustmentCreated" adjustmentId organizationId
    [("parentExpenseId", .id parentExpenseId), ("reason", .text reason)]

/-! ## Behaviour -/

namespace Expense

/-- What `Expense.create` is given. -/
structure CreateInput where
  organizationId : Id
  expenseNumber : String
  source : ExpenseSource
  amount : Money
  categoryId : Id
  vendorId : Option Id
  departmentId : Id
  projectId : Option Id
  periodId : Id
  expenseDate : JsDate
  description : Option String

/-- The properties of a new draft. -/
def draftProps (id : Id) (now : JsDate) (input : CreateInput) : ExpenseProps where
  id := id
  organizationId := input.organizationId
  expenseNumber := input.expenseNumber
  status := .draft
  source := input.source
  amount := input.amount
  categoryId := input.categoryId
  vendorId := input.vendorId
  departmentId := input.departmentId
  projectId := input.projectId
  periodId := input.periodId
  parentExpenseId := none
  adjustmentReason := none
  expenseDate := input.expenseDate
  description := input.description
  createdAt := now
  updatedAt := now

/-- A new expense is a draft of a positive amount. -/
def create (id : Id) (now : JsDate) (input : CreateInput) : Except Failure Expense := do
  ensure (¬ (input.amount.isZero ∨ input.amount.isNegative))
    (.range "Expense amount must be a positive, non-zero value")
  pure ⟨draftProps id now input, [expenseDrafted id input.organizationId input.source]⟩

/-- What `Expense.createAdjustment` is given. -/
structure AdjustmentInput where
  original : Expense
  reason : String
  currentOpenPeriodId : Id
  expenseNumber : String
  newAmountMinorUnits : ℤ
  requiresApproval : Bool

/-- The properties of an adjustment by `delta`. -/
def adjustmentProps (id : Id) (now : JsDate) (input : AdjustmentInput) (delta : Money) :
    ExpenseProps where
  id := id
  organizationId := input.original.props.organizationId
  expenseNumber := input.expenseNumber
  status := if input.requiresApproval then .pendingApproval else .approved
  source := input.original.props.source
  amount := delta
  categoryId := input.original.props.categoryId
  vendorId := input.original.props.vendorId
  departmentId := input.original.props.departmentId
  projectId := input.original.props.projectId
  periodId := input.currentOpenPeriodId
  parentExpenseId := some input.original.props.id
  adjustmentReason := some input.reason
  expenseDate := now
  description :=
    some ("Adjustment for " ++ input.original.props.expenseNumber ++ ": " ++ input.reason)
  createdAt := now
  updatedAt := now

/-- The events of a new adjustment. -/
def adjustmentEvents (id : Id) (input : AdjustmentInput) : List DomainEvent :=
  expenseAdjustmentCreated id input.original.props.organizationId input.original.props.id
      input.reason ::
    if input.requiresApproval then
      [expenseSubmittedForApproval id input.original.props.organizationId]
    else []

/-- A correction of an expense to a new total: a row of its own that holds the
difference to the original's amount, approved at once unless it requires
approval. -/
def createAdjustment (id : Id) (now : JsDate) (input : AdjustmentInput) :
    Except Failure Expense := do
  ensure (trim input.reason ≠ []) (.domain .adjustmentReasonRequired)
  ensure (¬ input.newAmountMinorUnits < 0) (.domain .invalidAdjustmentAmount)
  let newAmount : Money := ⟨input.newAmountMinorUnits, input.original.props.amount.currency⟩
  let delta ← newAmount.add input.original.props.amount.negate
  ensure (¬ delta.isZero) (.domain (.noOpAdjustment input.original.props.id))
  pure ⟨adjustmentProps id now input delta, adjustmentEvents id input⟩

/-- An expense as loaded from its row. -/
def reconstitute (props : ExpenseProps) : Expense := ⟨props, []⟩

/-- The transition is allowed from the current status. -/
def assertTransition (e : Expense) (target : ExpenseStatus) (allowedFrom : List ExpenseStatus) :
    Except Failure Unit :=
  ensure (e.props.status ∈ allowedFrom)
    (.domain (.invalidStateTransition "Expense" e.props.status.name target.name))

/-- The common shape of the four transitions: check, set the status and the
time of the update, record the event. -/
def transition (e : Expense) (target : ExpenseStatus) (allowedFrom : List ExpenseStatus)
    (now : JsDate) (event : DomainEvent) : Except Failure Expense := do
  e.assertTransition target allowedFrom
  pure
    { props := { e.props with status := target, updatedAt := now }
      domainEvents := e.domainEvents ++ [event] }

/-- `submitForApproval` -/
def submitForApproval (e : Expense) (now : JsDate) : Except Failure Expense :=
  e.transition .pendingApproval [.draft] now
    (expenseSubmittedForApproval e.props.id e.props.organizationId)

/-- `approve` -/
def approve (e : Expense) (approverId : Actor) (now : JsDate) : Except Failure Expense :=
  e.transition .approved [.pendingApproval] now
    (expenseApproved e.props.id e.props.organizationId approverId)

/-- `reject` -/
def reject (e : Expense) (approverId : Id) (reason : String) (now : JsDate) :
    Except Failure Expense :=
  e.transition .rejected [.pendingApproval] now
    (expenseRejected e.props.id e.props.organizationId approverId reason)

/-- `cancel` -/
def cancel (e : Expense) (actorId : Id) (now : JsDate) : Except Failure Expense :=
  e.transition .cancelled [.draft, .pendingApproval] now
    (expenseCancelled e.props.id e.props.organizationId actorId)

/-- `expenseToApprovable` -/
def toApprovable (e : Expense) : Approvable where
  id := e.props.id
  organizationId := e.props.organizationId
  departmentId := some e.props.departmentId
  requesterId := e.props.source.actorId
  amountMinorUnits := e.props.amount.minorUnits

theorem transition_ok {e e' : Expense} {target : ExpenseStatus} {allowedFrom : List ExpenseStatus}
    {now : JsDate} {event : DomainEvent} :
    e.transition target allowedFrom now event = .ok e' ↔
      e.props.status ∈ allowedFrom ∧
        e' = ⟨{ e.props with status := target, updatedAt := now }, e.domainEvents ++ [event]⟩ := by
  simp only [transition, assertTransition, except_bind_ok, ensure_ok, except_pure_ok,
    exists_and_left, exists_const]

theorem create_ok {id : Id} {now : JsDate} {input : CreateInput} {e : Expense} :
    create id now input = .ok e ↔
      0 < input.amount.minorUnits ∧
        e = ⟨draftProps id now input, [expenseDrafted id input.organizationId input.source]⟩ := by
  have hpos : ¬ (input.amount.isZero ∨ input.amount.isNegative) ↔ 0 < input.amount.minorUnits := by
    simp only [Money.isZero, Money.isNegative]
    omega
  simp only [create, except_bind_ok, ensure_ok, except_pure_ok, hpos, exists_and_left, exists_const]

/-- The difference an adjustment holds: the corrected total less the original's
amount. -/
def AdjustmentInput.delta (input : AdjustmentInput) : Money :=
  ⟨input.newAmountMinorUnits - input.original.props.amount.minorUnits,
    input.original.props.amount.currency⟩

/-- **When an adjustment is accepted**: it has a reason, its total is not
negative and differs from the original's amount. -/
theorem createAdjustment_ok {id : Id} {now : JsDate} {input : AdjustmentInput} {e : Expense} :
    createAdjustment id now input = .ok e ↔
      trim input.reason ≠ [] ∧ 0 ≤ input.newAmountMinorUnits ∧ input.delta.minorUnits ≠ 0 ∧
        e = ⟨adjustmentProps id now input input.delta, adjustmentEvents id input⟩ := by
  have hadd : Money.add ⟨input.newAmountMinorUnits, input.original.props.amount.currency⟩
      input.original.props.amount.negate = .ok input.delta :=
    Money.add_ok.mpr ⟨rfl, by rw [AdjustmentInput.delta, Money.negate, ← sub_eq_add_neg]⟩
  simp only [createAdjustment, hadd, except_bind_ok, ensure_ok, except_pure_ok, not_lt,
    Except.ok.injEq, exists_and_left, exists_const, exists_eq_left']
  rfl

end Expense

/-! ## Policies -/

namespace ExpenseApprovalPolicy

/-- ₦100,000 -/
def departmentHeadSoleThresholdMinorUnits : ℤ := 10000000

/-- ₦1,000,000 -/
def financeDirectorThresholdMinorUnits : ℤ := 100000000

/-- Three department heads of the organization. -/
def departmentHeadPanel : List ApprovalStep :=
  [⟨1, .departmentHead, .organization⟩, ⟨2, .departmentHead, .organization⟩,
    ⟨3, .departmentHead, .organization⟩]

/-- The magnitude of the (possibly negative) amount of an item. -/
def absoluteAmount (item : Approvable) : ℤ :=
  if item.amountMinorUnits < 0 then -item.amountMinorUnits else item.amountMinorUnits

/-- The chain an amount needs, by its magnitude. -/
def resolveChain (item : Approvable) : ApprovalChain :=
  if absoluteAmount item ≤ departmentHeadSoleThresholdMinorUnits then
    .of [⟨1, .departmentHead, .department⟩]
  else if absoluteAmount item < financeDirectorThresholdMinorUnits then .of departmentHeadPanel
  else .of (departmentHeadPanel ++ [⟨4, .financeDirector, .organization⟩])

/-- Every chain of the policy is numbered and not empty. -/
theorem resolveChain_numbered (item : Approvable) :
    (resolveChain item).Numbered ∧ (resolveChain item).steps ≠ [] := by
  simp only [resolveChain]
  split_ifs
  · exact ⟨by decide, by decide⟩
  · exact ⟨by decide, by decide⟩
  · exact ⟨by decide, by decide⟩

end ExpenseApprovalPolicy

/-- An adjustment requires approval exactly when it raises the amount. -/
def ExpenseAdjustmentApprovalPolicy.requiresApproval
    (newAmountMinorUnits originalAmountMinorUnits : ℤ) (_reason : String) : Bool :=
  decide (originalAmountMinorUnits < newAmountMinorUnits)

end RatelPlatform
