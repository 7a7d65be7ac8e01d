import FiveProtect.Lib.LuaPattern
import FiveProtect.Protocol.Schema

/-!
# Protocol: the values of the generated types

`rustType` of `generators/rust.ts` and `cppType` of `generators/cpp.ts` map the field types in the same
way; `Typed S type` is the type of the values, with `S` for texts.  An enumerator is its wire name, an
`i64` an integer.

`uuidShaped` and `datetimeShaped` are the loops over bytes that both generators emit.
-/

namespace Protocol

mutual
def Typed (S : Type) : FieldType → Type
  | .string _ _ _ => S
  | .int _ _ => Int
  | .bool => Bool
  | .enum ref => { value : String // value ∈ ref.values }
  | .struct _ fields => TypedFields S fields
  | .array items _ => List (Typed S items)
  | .optional inner => Option (Typed S inner)
def TypedFields (S : Type) : List (String × FieldType) → Type
  | [] => Unit
  | (_, type) :: fields => Typed S type × TypedFields S fields
end

/-- what an optional field has when it is not there -/
def Typed.missing (S : Type) : (type : FieldType) → Option (Typed S type)
  | .optional _ => some none
  | _ => none

/-- the range of `i64` and of `std::int64_t` -/
def isInt64 (i : Int) : Bool := -2 ^ 63 ≤ i && i < 2 ^ 63

/-- the positions of the dashes of a UUID -/
def isDashPosition (i : Nat) : Bool := i = 8 || i = 13 || i = 18 || i = 23

def uuidShaped (bytes : Bytes) : Bool :=
  bytes.length == 36 && bytes.zipIdx.all fun p =>
    if isDashPosition p.2 then p.1 == LuaPattern.byteOf '-' else LuaPattern.isHex p.1

def datetimeShape : Bytes := "0000-00-00T00:00:00"

/-- whatever follows the seconds, if anything does -/
def datetimeShaped (bytes : Bytes) : Bool :=
  decide (datetimeShape.length ≤ bytes.length) && (datetimeShape.zip bytes).all fun p =>
    if p.1 = LuaPattern.byteOf '0' then LuaPattern.isDigit p.2 else p.2 == p.1

end Protocol
