import RatelPlatform.SharedKernel

/-!
# Financial periods

The aggregate of a financial period: opened, closed, and reopened with a stated
reason.
-/

namespace RatelPlatform

/-- The status of a period. -/
inductive PeriodStatus where
  | open
  | closing
  | closed
  | reopened
  deriving DecidableEq

namespace PeriodStatus

/-- The name of a status. -/
def name : PeriodStatus → String
  | .open => "open"
  | closing => "closing"
  | closed => "closed"
  | reopened => "reopened"

/-- The statuses in which a period admits changes. -/
def openStatuses : List PeriodStatus := [.open, .reopened]

end PeriodStatus

/-- The columns of a period, apart from its key. -/
structure FinancialPeriodRow where
  organizationId : Id
  startDate : JsDate
  endDate : JsDate
  status : PeriodStatus
  closedById : Option Id
  closedAt : Option JsDate
  createdAt : JsDate
  deriving DecidableEq

/-- The properties of a period. -/
structure FinancialPeriodProps extends FinancialPeriodRow where
  id : Id
  deriving DecidableEq

/-- A period with the events recorded on it. -/
structure FinancialPeriod where
  props : FinancialPeriodProps
  domainEvents : List DomainEvent

/-! ## Events -/

/-- An event of a period. -/
def periodEvent (type : String) (periodId : Id) (payload : List (String × PayloadValue)) :
    DomainEvent :=
  ⟨type, "FinancialPeriod", periodId, payload⟩

/-- `periodOpened` -/
def periodOpened (periodId organizationId : Id) : DomainEvent :=
  periodEvent "PeriodOpened" periodId [("organizationId", .id organizationId)]

/-- `periodClosing` -/
def periodClosing (periodId organizationId : Id) : DomainEvent :=
  periodEvent "PeriodClosing" periodId [("organizationId", .id organizationId)]

/-- `periodClosed` -/
def periodClosed (periodId organizationId closedById : Id) : DomainEvent :=
  periodEvent "PeriodClosed" periodId
    [("organizationId", .id organizationId), ("closedById", .id closedById)]

/-- `periodReopened` -/
def periodReopened (periodId organizationId reopenedById : Id) (reason : List Char) : DomainEvent :=
  periodEvent "PeriodReopened" periodId
    [("organizationId", .id organizationId), ("reopenedById", .id reopenedById),
      ("reason", .text (String.ofList reason))]

/-! ## Behaviour -/

namespace FinancialPeriod

/-- A new period is open; it has to end after it starts. -/
def create (id organizationId : Id) (startDate endDate now : JsDate) :
    Except Failure FinancialPeriod := do
  ensure (startDate.ms < endDate.ms) (.domain .invalidPeriodDates)
  pure
    { props :=
        { id, organizationId, startDate, endDate, status := .open, closedById := none
          closedAt := none, createdAt := now }
      domainEvents := [periodOpened id organizationId] }

/-- A period as loaded from its row. -/
def reconstitute (props : FinancialPeriodProps) : FinancialPeriod := ⟨props, []⟩

/-- The transition is allowed from the current status. -/
def assertTransition (p : FinancialPeriod) (target : PeriodStatus)
    (allowedFrom : List PeriodStatus) : Except Failure Unit :=
  ensure (p.props.status ∈ allowedFrom)
    (.domain (.invalidStateTransition "FinancialPeriod" p.props.status.name target.name))

/-- `startClosing` -/
def startClosing (p : FinancialPeriod) : Except Failure FinancialPeriod := do
  p.assertTransition .closing [.open]
  pure
    { props := { p.props with status := .closing }
      domainEvents := p.domainEvents ++ [periodClosing p.props.id p.props.organizationId] }

/-- `close` -/
def close (p : FinancialPeriod) (closedById : Id) (now : JsDate) :
    Except Failure FinancialPeriod := do
  p.assertTransition .closed [.open, .closing]
  pure
    { props := { p.props with status := .closed, closedById := some closedById, closedAt := some now }
      domainEvents :=
        p.domainEvents ++ [periodClosed p.props.id p.props.organizationId closedById] }

/-- Reopening needs a reason that is not only white space. -/
def reopen (p : FinancialPeriod) (reopenedById : Id) (reason : String) :
    Except Failure FinancialPeriod := do
  p.assertTransition .reopened [.closed]
  ensure (trim reason ≠ []) (.domain .periodReopenReasonRequired)
  pure
    { props := { p.props with status := .reopened, closedById := none, closedAt := none }
      domainEvents := p.domainEvents ++
        [periodReopened p.props.id p.props.organizationId reopenedById (trim reason)] }

/-- The period admits changes. -/
def isOpen (p : FinancialPeriod) : Bool := decide (p.props.status ∈ PeriodStatus.openStatuses)

theorem create_ok {id organizationId : Id} {startDate endDate now : JsDate} {p : FinancialPeriod} :
    create id organizationId startDate endDate now = .ok p ↔
      startDate.ms < endDate.ms ∧
        p = ⟨⟨⟨organizationId, startDate, endDate, .open, none, none, now⟩, id⟩,
          [periodOpened id organizationId]⟩ := by
  simp only [create, except_bind_ok, ensure_ok, except_pure_ok, exists_and_left, exists_const]

/-- Closing and reopening change nothing of a period but its status and its
closing columns. -/
theorem close_ok {p p' : FinancialPeriod} {closedById : Id} {now : JsDate} :
    p.close closedById now = .ok p' ↔
      p.props.status ∈ [PeriodStatus.open, .closing] ∧
        p' = ⟨{ p.props with
            status := .closed, closedById := some closedById, closedAt := some now },
          p.domainEvents ++ [periodClosed p.props.id p.props.organizationId closedById]⟩ := by
  simp only [close, assertTransition, except_bind_ok, ensure_ok, except_pure_ok, exists_and_left,
    exists_const]

theorem reopen_ok {p p' : FinancialPeriod} {reopenedById : Id} {reason : String} :
    p.reopen reopenedById reason = .ok p' ↔
      p.props.status ∈ [PeriodStatus.closed] ∧ trim reason ≠ [] ∧
        p' = ⟨{ p.props with status := .reopened, closedById := none, closedAt := none },
          p.domainEvents ++
            [periodReopened p.props.id p.props.organizationId reopenedById (trim reason)]⟩ := by
  simp only [reopen, assertTransition, except_bind_ok, ensure_ok, except_pure_ok, exists_and_left,
    exists_const]

end FinancialPeriod

end RatelPlatform
