import ComponentStyles.Table

/-!
Values of a TOML document.

How a table came to be decides what may still be added to it: a table is written out only once,
and what has been written in one piece stays closed.
-/

namespace ComponentStyles.Toml

inductive TableOrigin where
  | declared
  | implied
  | dotted
  | inlined
  deriving DecidableEq, Repr

/-- A value.  Numbers with a point or an exponent, dates and times are kept as a kind only. -/
inductive Value where
  | string (text : String)
  | integer (value : Int)
  | real
  | boolean (value : Bool)
  | moment
  | array (items : List Value)
  | table (origin : TableOrigin) (entries : List (String × Value))
  /-- An array whose items are tables with headers of their own, the last one being written to
  and those in front of it, last one first. -/
  | tables (last : List (String × Value)) (front : List (List (String × Value)))
  deriving Repr

abbrev Entries :=
  Table String Value

structure Key where
  outer : List String
  name : String
  deriving DecidableEq, Repr

def Key.path (key : Key) : List String :=
  key.outer ++ [key.name]

def Entries.addNew? (entries : Entries) (name : String) (value : Value) : Option Entries :=
  match entries.get? name with
  | some _ => none
  | none => some (entries.put name value)

/-- Adds an entry under a dotted key.  The tables on its way are made where they are missing.
One that came to be otherwise may only be passed through, and one that was written out must not
be touched. -/
def Entries.insert? (entries : Entries) (name : String) (value : Value) :
    List String → Option Entries
  | [] => entries.addNew? name value
  | outer :: path =>
      match entries.get? outer with
      | none =>
          (Entries.insert? [] name value path).map fun inner =>
            entries.put outer (.table .dotted inner)
      | some (.table .dotted inner) =>
          (Entries.insert? inner name value path).map fun inner =>
            entries.put outer (.table .dotted inner)
      | some (.table .implied inner) =>
          if path.isEmpty then none
          else
            (Entries.insert? inner name value path).map fun inner =>
              entries.put outer (.table .implied inner)
      | some (.tables last front) =>
          if path.isEmpty then none
          else
            (Entries.insert? last name value path).map fun last =>
              entries.put outer (.tables last front)
      | some _ => none

/-- Changes the entries of the table that a path of names leads to.  Missing tables are made on
the way, and an array of tables stands for its last one. -/
def Entries.within? (entries : Entries) (change : Entries → Option Entries) :
    List String → Option Entries
  | [] => change entries
  | outer :: path =>
      match entries.get? outer with
      | none =>
          (Entries.within? [] change path).map fun inner =>
            entries.put outer (.table .implied inner)
      | some (.table .inlined _) => none
      | some (.table origin inner) =>
          (Entries.within? inner change path).map fun inner =>
            entries.put outer (.table origin inner)
      | some (.tables last front) =>
          (Entries.within? last change path).map fun last =>
            entries.put outer (.tables last front)
      | some _ => none

/-- Declares a table by its header; only tables that longer headers have implied may be there
already. -/
def Entries.declare? (entries : Entries) (name : String) : Option Entries :=
  match entries.get? name with
  | none => some (entries.put name (.table .declared []))
  | some (.table .implied inner) => some (entries.put name (.table .declared inner))
  | some _ => none

def Entries.declareItem? (entries : Entries) (name : String) : Option Entries :=
  match entries.get? name with
  | none => some (entries.put name (.tables [] []))
  | some (.tables last front) => some (entries.put name (.tables [] (last :: front)))
  | some _ => none

end ComponentStyles.Toml
