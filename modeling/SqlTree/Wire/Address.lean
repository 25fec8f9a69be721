import SqlTree.Text.Digit

/-!
# Wire — network addresses

The texts of addresses by number.  `isAddress` holds of the dotted form with four numbers and of the
form with up to eight hexadecimal groups, of which one run of zeros may be left out and the last two
may be written in the dotted form.
-/

namespace SqlTree.Wire
open Text (hexValue? numberOf)

/-- What follows a number from 0 to 255 without leading zeros. -/
def skipOctet (s : List Char) : Option (List Char) :=
  let ds := s.takeWhile Char.isDigit
  let n := numberOf 10 ds
  if ds.isEmpty ∨ 3 < ds.length ∨ 255 < n ∨ (1 < ds.length ∧ ds.head? = some '0') then none
  else some (s.dropWhile Char.isDigit)

/-- What follows numbers with dots between them. -/
def skipOctets : Nat → List Char → Option (List Char)
  | 0, s => some s
  | n + 1, '.' :: rest => do
    let rest ← skipOctet rest
    skipOctets n rest
  | _ + 1, _ => none

/-- What follows an address in dotted form. -/
def skipDotted (s : List Char) : Option (List Char) := do
  let rest ← skipOctet s
  skipOctets 3 rest

/-- What follows a group of one to four hexadecimal digits. -/
def skipGroup (s : List Char) : Option (List Char) :=
  let ds := s.takeWhile fun c => (hexValue? c).isSome
  if ds.isEmpty ∨ 4 < ds.length then none else some (s.drop ds.length)

/-- What follows a colon, or the whole text for the first group. -/
def skipColon : Bool → List Char → Option (List Char)
  | true, s => some s
  | false, ':' :: rest => some rest
  | false, _ => none

/-- As many groups with colons between them as there are, up to a limit: their count, whether the
last two were in dotted form, and what follows them. -/
def skipGroups : Nat → Bool → List Char → Nat × Bool × List Char
  | 0, _, s => (0, false, s)
  | limit + 1, first, s =>
    match if limit = 0 then none else (skipColon first s).bind skipDotted with
    | some rest => (2, true, rest)
    | none =>
      match (skipColon first s).bind skipGroup with
      | some rest =>
        let (n, dotted, rest) := skipGroups limit false rest
        (n + 1, dotted, rest)
      | none => (0, false, s)

/-- Whether a text is an address in groups. -/
def isGrouped (s : List Char) : Bool :=
  let (n, dotted, rest) := skipGroups 8 true s
  if n = 8 then rest.isEmpty
  else if dotted then false
  else
    match rest with
    | ':' :: ':' :: rest => (skipGroups (7 - n) true rest).2.2.isEmpty
    | _ => false

/-- Whether a text is an address by number. -/
def isAddress (s : String) : Bool :=
  skipDotted s.toList = some [] || isGrouped s.toList

end SqlTree.Wire
