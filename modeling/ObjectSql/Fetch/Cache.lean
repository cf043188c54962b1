import ObjectSql.Fetch.Compile

/-!
# Cached requests

Requests that were compiled for one profile, by what they ask for. A request is compiled from the
catalog of the first call that asks for it; a failure is not kept.
-/
namespace ObjectSql

structure FetchCache where
  entries : List (FetchKey × FetchRequest)

namespace FetchCache

def empty : FetchCache := ⟨[]⟩

def size (c : FetchCache) : Nat := c.entries.length

def isEmpty (c : FetchCache) : Bool := c.entries.isEmpty

def find? (c : FetchCache) (key : FetchKey) : Option FetchRequest := c.entries.lookup key

/-- Adds a request unless there is one for the key, and returns the one that is kept. -/
def insertOrKeep (c : FetchCache) (key : FetchKey) (r : FetchRequest) : FetchRequest × FetchCache :=
  match c.find? key with
  | some kept => (kept, c)
  | none => (r, ⟨c.entries ++ [(key, r)]⟩)

/-- Drops every request, as after a change of metadata. -/
def clear (_ : FetchCache) : FetchCache := empty

def getOrCompile (c : FetchCache) (catalog : Catalog) (p : Profile) (key : FetchKey) :
    Except FetchError FetchRequest × FetchCache :=
  match c.find? key with
  | some r => (.ok r, c)
  | none =>
    match FetchRequest.compile catalog p key with
    | .error e => (.error e, c)
    | .ok r =>
      let (kept, c) := c.insertOrKeep key r
      (.ok kept, c)

end FetchCache

end ObjectSql
