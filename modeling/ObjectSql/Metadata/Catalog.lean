import ObjectSql.Metadata.Class
import ObjectSql.Metadata.Fault

/-!
# Catalogs

A catalog holds classes by name. The chain of a class is the class, its superclass and so on to the
root; members and the identity are looked up along it, so the nearest declaration wins.
-/
namespace ObjectSql

structure Catalog where
  classes : List ClassMapping
deriving Repr, DecidableEq, Inhabited

namespace Catalog

def empty : Catalog := ⟨[]⟩

/-- Registers a class in place of one of the same name. -/
def add (c : Catalog) (k : ClassMapping) : Catalog :=
  ⟨c.classes.filter (·.name != k.name) ++ [k]⟩

def ofClasses (ks : List ClassMapping) : Catalog := ks.foldl add empty

def class? (c : Catalog) (name : String) : Option ClassMapping :=
  c.classes.find? (·.name == name)

def getClass (c : Catalog) (name : String) : Except MetadataFault ClassMapping :=
  match c.class? name with
  | some k => .ok k
  | none => .error (.unknownClass name)

/-- A class and its superclasses; `seen` are the names of the classes below it. Every step adds a
registered class to them, so as many steps as there are classes are enough. -/
def chainFrom (c : Catalog) :
    (steps : Nat) → (seen : List String) → ClassMapping → Except MetadataFault (List ClassMapping)
  | 0, _, k => .error (.inheritanceCycle k.name)
  | steps + 1, seen, k =>
    match k.superclass with
    | none => .ok [k]
    | some parent =>
      if (k.name :: seen).contains parent then .error (.inheritanceCycle parent)
      else do
        let above ← c.getClass parent
        let chain ← chainFrom c steps (k.name :: seen) above
        pure (k :: chain)

/-- The class first and the root last. -/
def chain (c : Catalog) (name : String) : Except MetadataFault (List ClassMapping) := do
  let k ← c.getClass name
  c.chainFrom c.classes.length [] k

/-- The identity of the nearest class of the chain that declares one. -/
def identity (c : Catalog) (name : String) : Except MetadataFault IdentityStrategy := do
  let chain ← c.chain name
  match chain.findSome? ClassMapping.identity with
  | some s => pure s
  | none => .error (.noIdentity name)

def hasSubclasses (c : Catalog) (name : String) : Bool :=
  c.classes.any (·.superclass == some name)

/-- A member with the place of its class in the chain. -/
def member (c : Catalog) (name : String) (number : Nat) :
    Except MetadataFault (Nat × MemberMapping) := do
  let chain ← c.chain name
  match chain.zipIdx.findSome? fun (k, depth) => (k.declared? number).map (depth, ·) with
  | some found => pure found
  | none => .error (.noMember name number)

/-- The identity columns of a member of the key. -/
def keyColumns (className : String) (m : MemberMapping) :
    Except MetadataFault (List IdentityColumn) :=
  if m.columns.isEmpty then .error (.keyWithoutColumns m.name className)
  else .ok (m.columns.zipIdx.map fun (column, i) => ⟨some m.number, i, column, m.logicalType⟩)

def identityColumns (c : Catalog) (name : String) : Except MetadataFault (List IdentityColumn) := do
  match ← c.identity name with
  | .surrogate column logicalType => pure [⟨none, 0, column, logicalType⟩]
  | .application members => do
    let columns ← members.mapM fun number => do
      let (_, m) ← c.member name number
      keyColumns name m
    pure columns.flatten

end Catalog

end ObjectSql
