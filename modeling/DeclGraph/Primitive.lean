/-!
# Primitive types

The scalar types of the 32-bit x86 target, the names by which declarations spell them, and their
sizes. `names` is the whole table; nothing outside it is primitive.
-/

namespace DeclGraph

/-- A scalar type of the target. -/
inductive Primitive
  | void | bool | i8 | u8 | i16 | u16 | wchar | i32 | u32 | f32 | usize | isize | i64 | u64 | f64
  deriving DecidableEq, Repr

namespace Primitive

/-- The spellings of each primitive type. -/
def spellings : List (Primitive × List String) := [
  (void, ["void", "VOID"]),
  (bool, ["bool", "_BOOL1", "BOOLEAN"]),
  (i8, ["char", "signed char", "__int8", "int8_t", "CHAR"]),
  (u8, ["unsigned char", "unsigned __int8", "uint8_t", "_BYTE", "BYTE", "byte", "UCHAR",
    "_UNKNOWN"]),
  (i16, ["short", "short int", "signed short", "signed short int", "__int16", "int16_t",
    "SHORT"]),
  (u16, ["unsigned short", "unsigned short int", "unsigned __int16", "uint16_t", "_WORD", "WORD",
    "USHORT", "_BOOL2"]),
  (wchar, ["wchar_t", "char16_t", "WCHAR"]),
  (i32, ["int", "signed", "signed int", "long", "long int", "signed long", "__int32", "int32_t",
    "INT", "LONG", "BOOL", "_BOOL4", "HRESULT"]),
  (u32, ["char32_t", "unsigned", "unsigned int", "unsigned long", "unsigned long int",
    "unsigned __int32", "uint32_t", "_DWORD", "DWORD", "UINT", "ULONG"]),
  (f32, ["float", "FLOAT"]),
  (usize, ["size_t", "uintptr_t", "UINT_PTR", "ULONG_PTR", "DWORD_PTR"]),
  (isize, ["ssize_t", "ptrdiff_t", "intptr_t", "INT_PTR", "LONG_PTR"]),
  (i64, ["long long", "long long int", "signed long long", "__int64", "int64_t", "LONGLONG"]),
  (u64, ["unsigned long long", "unsigned long long int", "unsigned __int64", "uint64_t", "_QWORD",
    "QWORD", "ULONGLONG"]),
  (f64, ["double", "long double", "DOUBLE"])]

/-- Every name of a primitive type with the type it names. -/
def table : List (String × Primitive) :=
  spellings.flatMap fun (p, names) => names.map (·, p)

/-- Every name of a primitive type. -/
def names : List String := table.map Prod.fst

/-- The primitive type that `name` spells. -/
def ofName? (name : String) : Option Primitive := table.lookup name

/-- Whether `name` spells a primitive type. -/
def isName (name : String) : Bool := (ofName? name).isSome

/-- Bytes that a value takes. -/
def size : Primitive → Nat
  | void => 0
  | bool | i8 | u8 => 1
  | i16 | u16 | wchar => 2
  | i32 | u32 | f32 | usize | isize => 4
  | i64 | u64 | f64 => 8

/-- The spelling under which a primitive type is shown. -/
def display : Primitive → String
  | void => "void"
  | bool => "bool"
  | i8 => "char"
  | u8 => "unsigned char"
  | i16 => "short"
  | u16 => "unsigned short"
  | wchar => "wchar_t"
  | i32 => "int"
  | u32 => "unsigned int"
  | f32 => "float"
  | usize => "size_t"
  | isize => "ptrdiff_t"
  | i64 => "__int64"
  | u64 => "unsigned __int64"
  | f64 => "double"

/-- A primitive type is shown under one of its own names. -/
theorem ofName?_display (p : Primitive) : ofName? p.display = some p := by
  cases p <;> decide +kernel

end Primitive

end DeclGraph
