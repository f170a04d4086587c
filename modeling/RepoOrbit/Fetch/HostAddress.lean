import RepoOrbit.Path

/-!
# Numeric host addresses

Whether a text is an address of four decimal numbers (`isDotted`) or one of eight
hexadecimal groups, of which a run of zeros may be left out (`isGrouped`).
-/

namespace RepoOrbit.HostAddress

/-- The pieces of a text between the occurrences of a character. -/
def pieces (separator : Char) (s : String) : List String := s.splitToList (· == separator)

/-- Whether a text is a number up to 255 without zeros in front. -/
def isOctet (s : String) : Bool :=
  let cs := s.toList
  !cs.isEmpty && cs.all Char.isDigit && cs.length ≤ 3 && (s == "0" || cs.head? != some '0') &&
    cs.foldl (fun n c => n * 10 + (c.toNat - 48)) 0 ≤ 255

/-- Whether a text is an address of four decimal numbers. -/
def isDotted (s : String) : Bool :=
  let parts := pieces '.' s
  parts.length == 4 && parts.all isOctet

/-- Whether a character is a hexadecimal digit. -/
def isHex (c : Char) : Bool := c.isDigit || ('a' ≤ c && c ≤ 'f') || ('A' ≤ c && c ≤ 'F')

/-- Whether a text is a group of up to four hexadecimal digits. -/
def isGroup (s : String) : Bool := s != "" && s.length ≤ 4 && s.toList.all isHex

/-- Whether the groups on both sides of a run of zeros are in order: an end may
be empty only next to the run. -/
def sidesFit (before after : List String) : Bool :=
  let left := if before.head? = some "" then before.drop 1 else before
  let right := if after.getLast? = some "" then after.dropLast else after
  (before.head? != some "" || left.isEmpty) && (after.getLast? != some "" || right.isEmpty) &&
    left.length + right.length < 8 && left.all isGroup && right.all isGroup

/-- The groups of an address, a decimal address at the end counting as two. -/
def groups? (s : String) : Option (List String) :=
  let parts := pieces ':' s
  if parts.length < 3 then none
  else
    let last := parts.getLast?.getD ""
    if last.contains '.' then
      if isDotted last then some (parts.dropLast ++ ["0", "0"]) else none
    else some parts

/-- Whether the groups of an address are in order: eight of them, or fewer around the one place
where a run of zeros is left out. -/
def groupsFit (parts : List String) : Bool :=
  if 9 < parts.length then false
  else
    let inner := (parts.drop 1).dropLast
    match inner.count "" with
    | 0 => parts.length == 8 && parts.all isGroup
    | 1 =>
      let cut := inner.idxOf "" + 1
      sidesFit (parts.take cut) (parts.drop (cut + 1))
    | _ => false

/-- Whether a text is an address of hexadecimal groups; a zone may follow it. -/
def isGrouped (s : String) : Bool :=
  match pieces '%' s with
  | [address] => (groups? address).any groupsFit
  | [address, zone] => zone != "" && (groups? address).any groupsFit
  | _ => false

end RepoOrbit.HostAddress
