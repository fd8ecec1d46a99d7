import RowFlags.Workspace

/-!
# Models

A model is a mapped class together with flags, each under a name that is no attribute of the class.
A model may carry on the flags of another, which then both share. Records are made of plain values
first and flags second, so that a flag has the last word on its attribute.
-/

set_option autoImplicit false

namespace RowFlags

/-- A mapped class with its flags. -/
structure Model where
  mapping : Mapping
  flags : NameMap Flag

namespace Model

/-- The flags of a parent with further ones, which replace those of their names. -/
def carryOn (parent : Model) (own : List (String × Flag)) : NameMap Flag :=
  own.foldl (fun flags entry => flags.insert entry.1 entry.2) parent.flags

/-- Registers flags with a class one after the other. A flag with the name of an attribute is
refused; flags before it stay registered. -/
def registerAll (m : Mapping) (d : Directory) :
    List (String × Flag) → Workspace → Except FlagError Unit × Workspace
  | [], w => (.ok (), w)
  | (name, f) :: rest, w =>
    if m.hasAttribute name then (.error (.attributeConflict m.id name), w)
    else
      match w.register f d m.id with
      | .error e => (.error e, w)
      | .ok w => registerAll m d rest w

/-- Makes the model of a class and flags, registering the flags in the order of their names. -/
def build (m : Mapping) (flags : NameMap Flag) (d : Directory) (w : Workspace) :
    Except FlagError Model × Workspace :=
  match registerAll m d flags.entries w with
  | (.error e, w) => (.error e, w)
  | (.ok (), w) => (.ok ⟨m, flags⟩, w)

/-- The flag of a name. -/
def flag (m : Model) (name : String) : Except FlagError Flag :=
  match m.flags.get? name with
  | some f => .ok f
  | none => .error (.unknownAttribute m.mapping.id name)

/-- The condition of a flag, by which stored rows are chosen. -/
def predicate (m : Model) (name : String) : Except FlagError Expr := Flag.predicate <$> m.flag name

/-- A new record of the class. -/
def newRecord (m : Model) : Record := m.mapping.newRecord

/-- The value of an attribute, or of a flag as a Boolean. -/
def read (w : Workspace) (m : Model) (r : Record) (name : String) : Except FlagError Value :=
  match m.flags.get? name with
  | some f => Value.boolean <$> w.getFlag f r
  | none =>
    match r.attribute? name with
    | some v => .ok v
    | none => .error (.unknownAttribute r.classId name)

/-- The record with another value of an attribute that the class maps and that can hold it. -/
def writePlain (m : Model) (r : Record) (name : String) (v : Value) : Except FlagError Record :=
  match m.mapping.property? name with
  | none => .error (.unknownAttribute m.mapping.id name)
  | some p => checkFit name p.column v >>= r.set name

/-- Writes an attribute, or assigns a flag. -/
def write (w : Workspace) (m : Model) (r : Record) (name : String) (v : Value) :
    Except FlagError Record × Workspace :=
  match m.flags.get? name with
  | some f => w.assignFlag f r v
  | none => (m.writePlain r name v, w)

/-- Whether a flag is on for a record. -/
def getFlag (w : Workspace) (m : Model) (r : Record) (name : String) : Except FlagError Bool := do
  let f ← m.flag name
  w.getFlag f r

/-- Assigns a flag on a record. -/
def setFlag (w : Workspace) (m : Model) (r : Record) (name : String) (v : Value) :
    Except FlagError Record × Workspace :=
  match m.flag name with
  | .error e => (.error e, w)
  | .ok f => w.assignFlag f r v

/-- Writes entries one after the other; the first refusal ends it. -/
def writeAll (m : Model) :
    List (String × Value) → Workspace → Record → Except FlagError Record × Workspace
  | [], w, r => (.ok r, w)
  | (name, v) :: rest, w, r =>
    match m.write w r name v with
    | (.error e, w) => (.error e, w)
    | (.ok r, w) => m.writeAll rest w r

/-- Makes a record of entries: the plain ones in their order, then the flags in theirs. -/
def create (w : Workspace) (m : Model) (entries : List (String × Value)) :
    Except FlagError Record × Workspace :=
  let plain := entries.filter fun e => !m.flags.contains e.1
  let flagged := entries.filter fun e => m.flags.contains e.1
  m.writeAll (plain ++ flagged) w m.newRecord

end Model

end RowFlags
