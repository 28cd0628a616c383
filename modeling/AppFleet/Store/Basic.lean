import AppFleet.Application.Diff
import AppFleet.Application.Lifecycle
import AppFleet.Ledger.Basic
import AppFleet.Node.Registry

/-!
The store: the applications, the ledger and the node registry. Each operation is one transaction.
-/

namespace AppFleet

structure Store where
  apps : Table Application
  ledger : Ledger
  nodes : Registry

namespace Store

def empty : Store := ⟨.empty, .empty, .empty⟩

def putApp (s : Store) (a : Application) : Store := { s with apps := s.apps.put a.id a }

def removeApp (s : Store) (id : AppId) : Option Application × Store :=
  (s.apps.get? id, { s with apps := s.apps.erase id })

/-- Changes one application. A change that fails and one that changes nothing leave it as it was; any
other stamps it with the time. -/
def changeApp (s : Store) (now : UInt64) (id : AppId)
    (change : Application → Except Fault Application) : Except Fault (Option Diff) × Store :=
  match s.apps.get? id with
  | none => (.ok none, s)
  | some before =>
    match change before with
    | .error e => (.error e, s)
    | .ok after =>
      if after = before then (.ok (some (.updated before before)), s)
      else
        let after := { after with updatedAt := now }
        (.ok (some (.updated before after)), { s with apps := s.apps.put id after })

end Store

end AppFleet
