import ShadowCatalog.Catalog.Call

/-!
# Faults

A fault makes calls of one kind fail: it lets some calls pass, makes the next
ones fail, and is then spent. Several faults may wait for one kind of call. Each
call goes to them in the order in which they were set; one that lets it pass
hands it on, and one that makes it fail ends it.
-/

namespace ShadowCatalog

/-- A fault that waits for calls. -/
structure Fault where
  kind : CallKind
  /-- The number of calls still let pass. -/
  skip : Nat
  /-- The number of calls still made to fail. -/
  times : Nat
  error : Error
  deriving DecidableEq, Repr

/-- The error with which a call of this kind fails, if it does, and the faults
    after the call. -/
def strike (kind : CallKind) : List Fault → Option Error × List Fault
  | [] => (none, [])
  | fault :: faults =>
    if fault.kind ≠ kind || fault.times = 0 then
      let (error, later) := strike kind faults
      (error, fault :: later)
    else if fault.skip > 0 then
      let (error, later) := strike kind faults
      (error, { fault with skip := fault.skip - 1 } :: later)
    else (some fault.error, { fault with times := fault.times - 1 } :: faults)

end ShadowCatalog
