import ShapeExport.Text.Hex

/-!
# Identities of named types

* `TypeKey` : what tells two types apart: a hash, and whether it comes from a name or from a counter;
* `TypeId` : a key together with a label for messages. Two ids stand for the same type when their
  keys are equal, whatever the labels;
* `fnv1a` : the 64-bit FNV-1a hash of a list of bytes;
* `TypeId.ofName` : the id of a type with a short name and a name that is unique in the program. A
  zero byte between the two keeps apart pairs whose joined text is the same.
-/

namespace ShapeExport

/-- A static id is known to every collection, a virtual one was issued by a counter. -/
inductive IdKind
  | static
  | virtual
deriving DecidableEq, Repr

structure TypeKey where
  kind : IdKind
  hash : Nat
deriving DecidableEq, Repr

namespace TypeKey

/-- Static keys come first; keys of one kind are in the order of their hashes. -/
def le (a b : TypeKey) : Bool :=
  match a.kind, b.kind with
  | .static, .virtual => true
  | .virtual, .static => false
  | _, _ => a.hash ≤ b.hash

theorem le_refl (a : TypeKey) : a.le a := by
  cases a with
  | mk kind hash => cases kind <;> simp [le]

theorem le_total (a b : TypeKey) : a.le b || b.le a := by
  obtain ⟨ka, ha⟩ := a
  obtain ⟨kb, hb⟩ := b
  cases ka <;> cases kb <;> simp [le] <;> omega

theorem le_trans {a b c : TypeKey} (hab : a.le b) (hbc : b.le c) : a.le c := by
  obtain ⟨ka, ha⟩ := a
  obtain ⟨kb, hb⟩ := b
  obtain ⟨kc, hc⟩ := c
  cases ka <;> cases kb <;> cases kc <;> simp [le] at * <;> omega

theorem le_antisymm {a b : TypeKey} (hab : a.le b) (hba : b.le a) : a = b := by
  obtain ⟨ka, ha⟩ := a
  obtain ⟨kb, hb⟩ := b
  cases ka <;> cases kb <;> simp [le] at * <;> omega

end TypeKey

structure TypeId where
  key : TypeKey
  label : String
deriving DecidableEq, Repr

/-! ## Hashing -/

def fnvOffset : UInt64 := 0xcbf29ce484222325

def fnvPrime : UInt64 := 0x100000001b3

def fnvStep (h : UInt64) (byte : UInt8) : UInt64 := (h ^^^ byte.toUInt64) * fnvPrime

def fnv1a (bytes : List UInt8) : UInt64 := bytes.foldl fnvStep fnvOffset

def utf8 (s : String) : List UInt8 := s.toUTF8.data.toList

/-- The bytes that tell a short name and a unique name. -/
def nameBytes (short unique : String) : List UInt8 := utf8 short ++ 0 :: utf8 unique

namespace TypeId

def ofName (short unique : String) : TypeId :=
  ⟨⟨.static, (fnv1a (nameBytes short unique)).toNat⟩, short⟩

/-- The id of a declaration with a short name, a module and, if it has one, a name in the module. -/
def ofDeclaration (short owner qualified : String) : TypeId :=
  ofName short (owner ++ "." ++ (if qualified.isEmpty then short else qualified))

/-- The id that a counter issues. -/
def issued (serial : Nat) (label : String) : TypeId := ⟨⟨.virtual, serial⟩, label⟩

/-- The label and the hash, in at least sixteen hexadecimal digits. -/
def text (id : TypeId) : String :=
  (if id.label.isEmpty then "<anonymous>" else id.label) ++ "#" ++ Text.hexText 16 id.key.hash

end TypeId

end ShapeExport
