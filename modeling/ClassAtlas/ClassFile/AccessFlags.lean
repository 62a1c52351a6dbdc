import ClassAtlas.Text.Dotted

/-!
# Access flags

Classes, fields and methods carry sixteen flag bits. All of them are kept; the
tables below name the bits that have a meaning for each kind of item.
-/

namespace ClassAtlas

namespace AccessFlags

/-- Visible everywhere. -/
def publicBit : UInt16 := 0x0001
/-- Visible in the declaring class only. -/
def privateBit : UInt16 := 0x0002
/-- Visible in the package and in subclasses. -/
def protectedBit : UInt16 := 0x0004
/-- Belongs to the class and not to its instances. -/
def staticBit : UInt16 := 0x0008
/-- Cannot be overridden, extended or assigned. -/
def finalBit : UInt16 := 0x0010
/-- A method that holds a monitor while it runs. -/
def synchronizedBit : UInt16 := 0x0020
/-- A method generated to bridge differing erasures. -/
def bridgeBit : UInt16 := 0x0040
/-- A method implemented outside the platform. -/
def nativeBit : UInt16 := 0x0100
/-- A class that is an interface. -/
def interfaceBit : UInt16 := 0x0200
/-- Declared without an implementation. -/
def abstractBit : UInt16 := 0x0400
/-- Generated by the compiler. -/
def syntheticBit : UInt16 := 0x1000

/-- The named bits of a class. -/
def classNames : List (UInt16 × String) :=
  [(0x0001, "PUBLIC"), (0x0010, "FINAL"), (0x0020, "SUPER"), (0x0200, "INTERFACE"),
    (0x0400, "ABSTRACT"), (0x1000, "SYNTHETIC"), (0x2000, "ANNOTATION"), (0x4000, "ENUM"),
    (0x8000, "MODULE")]

/-- The named bits of a field. -/
def fieldNames : List (UInt16 × String) :=
  [(0x0001, "PUBLIC"), (0x0002, "PRIVATE"), (0x0004, "PROTECTED"), (0x0008, "STATIC"),
    (0x0010, "FINAL"), (0x0040, "VOLATILE"), (0x0080, "TRANSIENT"), (0x1000, "SYNTHETIC"),
    (0x4000, "ENUM")]

/-- The named bits of a method. -/
def methodNames : List (UInt16 × String) :=
  [(0x0001, "PUBLIC"), (0x0002, "PRIVATE"), (0x0004, "PROTECTED"), (0x0008, "STATIC"),
    (0x0010, "FINAL"), (0x0020, "SYNCHRONIZED"), (0x0040, "BRIDGE"), (0x0080, "VARARGS"),
    (0x0100, "NATIVE"), (0x0400, "ABSTRACT"), (0x0800, "STRICT"), (0x1000, "SYNTHETIC")]

/-- Whether a flag bit is set. -/
def has (flags bit : UInt16) : Bool :=
  flags &&& bit = bit

/-- The names of the set bits, in table order. -/
def names (table : List (UInt16 × String)) (flags : UInt16) : List String :=
  (table.filter fun entry => has flags entry.1).map (·.2)

/-- The words for the visibility of a method, the strongest set bit only. -/
def visibilityWords (flags : UInt16) : List String :=
  if has flags publicBit then ["public"]
  else if has flags protectedBit then ["protected"]
  else if has flags privateBit then ["private"]
  else []

/-- The source spelling of the visibility and the modifiers of a method. -/
def methodModifiers (flags : UInt16) : String :=
  let others :=
    [(abstractBit, "abstract"), (staticBit, "static"), (finalBit, "final"),
      (synchronizedBit, "synchronized"), (nativeBit, "native")]
  Text.joined " " (visibilityWords flags ++ names others flags)

end AccessFlags

end ClassAtlas
