import FiveProtect.Lib.Text
import Mathlib.Data.List.DropRight

/-!
# Companion: origins of URLs

`origin_of` of `apps/companion/crates/fiveprotect-core/src/local.rs`, which `is_same_origin` of
`updater.rs` repeats: scheme, host and port of an absolute http URL.
-/

namespace Companion

/-- `char::is_whitespace` -/
def isWhitespace (c : Char) : Bool :=
  let n := c.toNat
  (9 ≤ n && n ≤ 13) || n == 0x20 || n == 0x85 || n == 0xA0 || n == 0x1680 ||
    (0x2000 ≤ n && n ≤ 0x200A) || n == 0x2028 || n == 0x2029 || n == 0x202F || n == 0x205F || n == 0x3000

/-- `str::trim` -/
def trim (text : List Char) : List Char := (text.dropWhile isWhitespace).rdropWhile isWhitespace

/-- the characters after which the authority of a URL ends -/
def endsAuthority (c : Char) : Bool := c == '/' || c == '?' || c == '#'

def originOf (url : String) : Option String :=
  let lowered := (trim url.toList).map Char.toLower
  let rest := (("https://".toList.isPrefixOf? lowered).map fun rest => ("https", rest)).or
    (("http://".toList.isPrefixOf? lowered).map fun rest => ("http", rest))
  rest.bind fun (scheme, rest) =>
    let authority := rest.takeWhile fun c => !endsAuthority c
    if authority = [] then none else some (scheme ++ "://" ++ String.ofList authority)

/-- `is_same_origin` -/
def isSameOrigin (url origin : String) : Bool :=
  match originOf url, originOf origin with
  | some left, some right => left == right
  | _, _ => false

/-- both have one, and it is the same -/
def SameOrigin (url origin : String) : Prop := ∃ o, originOf url = some o ∧ originOf origin = some o

theorem isSameOrigin_iff {url origin : String} :
    isSameOrigin url origin = true ↔ SameOrigin url origin := by
  unfold isSameOrigin SameOrigin
  cases originOf url with
  | none => simp
  | some left =>
    cases originOf origin with
    | none => simp
    | some right =>
      simp only [Option.some.injEq, beq_iff_eq]
      constructor
      · rintro rfl
        exact ⟨left, rfl, rfl⟩
      · rintro ⟨o, rfl, rfl⟩
        rfl

end Companion
