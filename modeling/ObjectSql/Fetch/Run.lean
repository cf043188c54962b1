import ObjectSql.Fetch.Error
import ObjectSql.Fetch.Object

/-!
# Runs of a fetch

A run is the list of what happened, in order, and what came of it. A run that fails stops there;
what happened before is kept.
-/
namespace ObjectSql

inductive FetchEvent where
  /-- The lock manager is asked about an identity. -/
  | lockMode (identity : List Value)
  | acquire
  | query (sql : String) (params : List Value) (resultTypes : List String)
  | release
  | setVersion (v : Value)
  | replaceField (member : Nat) (v : FieldValue)
  /-- Keeps the identity of a related object, or that there is none. -/
  | storeReference (member : Nat) (reference : Option ObjectReference)
  | loadDeferred (member : Nat)
deriving DecidableEq

structure FetchRun (α : Type) where
  events : List FetchEvent
  result : Except FetchError α

namespace FetchRun

variable {α β : Type}

def done (a : α) : FetchRun α := ⟨[], .ok a⟩

def andThen (r : FetchRun α) (next : α → FetchRun β) : FetchRun β :=
  match r.result with
  | .ok a => ⟨r.events ++ (next a).events, (next a).result⟩
  | .error e => ⟨r.events, .error e⟩

instance : Monad FetchRun where
  pure := done
  bind := andThen

def emit (event : FetchEvent) : FetchRun Unit := ⟨[event], .ok ()⟩

/-- A step that nothing is seen of unless it fails. -/
def ofExcept (result : Except FetchError α) : FetchRun α := ⟨[], result⟩

def fail (e : FetchError) : FetchRun α := ofExcept (.error e)

/-- Runs a step for every element. -/
def forEach (step : α → FetchRun Unit) : List α → FetchRun Unit
  | [] => done ()
  | a :: as => (step a).andThen fun _ => forEach step as

end FetchRun

end ObjectSql
