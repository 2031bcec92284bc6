import RExecOp.Access

/-! Receipt export and its repair (`OperationController.export_receipt`,
`runtime_ops/projection.py` and the receipt half of `runtime_ops/recovery.py`). -/

namespace RExecOp

def Operation.projectedMarker (op : Operation) : Operation :=
  { op with projection := op.projection.map fun marker => { marker with projected := true } }

def exportReceipt (id : String) : Program Unit := do
  let op ← loadOperation id
  let _ ← loadPlan id
  check
  access (.saveReceipt op) fun _ _ => .ok ()
  emit .plain
  emit .plain
  let _ ← saveOperation op.projectedMarker
  pure ()

inductive ReceiptStatus where
  | alreadySatisfied
  | receiptExported
  | recoveryBlocker
  deriving DecidableEq, Repr

def recordReceiptBlocker (op : Operation) (reason : String) : Program ReceiptStatus := do
  let _ ← saveOperation { op with recoveryBlocker := some reason }
  pure .recoveryBlocker

def orBlocker (op : Operation) (reason : String) (body : Program ReceiptStatus) :
    Program ReceiptStatus := do
  match ← body.attempt with
  | .ok status => pure status
  | .error fault => if fault.isValidation then recordReceiptBlocker op reason else raise fault

def ensureTerminalReceipt (id : String) : Program ReceiptStatus := do
  let op ← loadOperation id
  let needed ← read fun w => .ok (w.needsReceipt op)
  if !needed then pure .alreadySatisfied
  else
    let planned ← orBlocker op "plan_missing" do
      let _ ← loadPlan id
      pure .alreadySatisfied
    if planned = .recoveryBlocker then pure .recoveryBlocker
    else orBlocker op "receipt_export_failed" do
      exportReceipt id
      pure .receiptExported

def reconcilePendingProjections : Program (List String × List String) := do
  let pending ← read fun w => .ok w.listPendingProjectionOperations
  let projected ← Prog.forEach pending fun op => do
    if op.state.isTerminalReceipt then
      exportReceipt op.id
      pure (some op.id)
    else pure none
  pure (projected, (pending.filter fun op => !op.state.isTerminalReceipt).map (·.id))

end RExecOp
