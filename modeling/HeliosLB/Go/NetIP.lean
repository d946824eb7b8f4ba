/-
  File:      HeliosLB/Go/NetIP.lean
  Subject:   THE PARTS OF GO'S `strings`, `bytes`, `net` AND `strconv` THE SOURCE CALLS.
             Definitions only; the round trip between `net.ParseIP` and `net.IP.String` is
             RoundTrip.lean.

  A `net.IP` is a byte slice: 4 bytes for IPv4, 16 for IPv6, and the 16-byte form
  `::ffff:a.b.c.d` of an IPv4 address counts as IPv4 (`to4`). A nil result is `none` where the
  callers test for nil and the empty slice otherwise.

  * `trimSpace`, `bytesCompare` -- `strings.TrimSpace`, `bytes.Compare`;
  * `to4`, `to16`, `ipEqual` -- `IP.To4`, `IP.To16`, `IP.Equal`;
  * `parseAddr`, `parseIP`, `parseCIDR` -- the address grammar, with the scan of
    `netip.ParseAddr`: an IPv4 octet has no leading zero, an IPv6 text has at most one `::`, and
    its last 32 bits may be dotted;
  * `ipString` -- `IP.String`: dotted decimal, or hex groups with the first longest run of at
    least two zero groups written `::`;
  * `quote` -- `strconv.Quote`, the verb `%q` of the error texts.
-/
import Mathlib.Algebra.Group.Nat.Defs
import Mathlib.Data.List.Basic

namespace HeliosLB

/-! ## 1. `strings` and `bytes` -/

/-- `unicode.IsSpace`. -/
def isSpace (c : Char) : Bool :=
  c.toNat ∈ [0x09, 0x0A, 0x0B, 0x0C, 0x0D, 0x20, 0x85, 0xA0, 0x1680, 0x2028, 0x2029, 0x202F,
    0x205F, 0x3000] || (0x2000 ≤ c.toNat && c.toNat ≤ 0x200A)

/-- `strings.TrimSpace`. -/
def trimSpace (s : String) : String :=
  String.ofList (((s.toList.dropWhile isSpace).reverse.dropWhile isSpace).reverse)

/-- `bytes.Compare`: lexicographic, a proper prefix is smaller. -/
def bytesCompare : List UInt8 → List UInt8 → Ordering
  | [], [] => .eq
  | [], _ :: _ => .lt
  | _ :: _, [] => .gt
  | a :: as, b :: bs => if a < b then .lt else if b < a then .gt else bytesCompare as bs

/-! ## 2. The byte slice -/

/-- `net.IP`. -/
abbrev IP := List UInt8

/-- The first twelve bytes of an IPv4 address in 16-byte form. -/
def v4InV6Prefix : IP := [0, 0, 0, 0, 0, 0, 0, 0, 0, 0, 0xff, 0xff]

/-- `IP.To4`. -/
def to4 (ip : IP) : Option IP :=
  if ip.length = 4 then some ip
  else if ip.length = 16 ∧ ip.take 12 = v4InV6Prefix then some (ip.drop 12)
  else none

/-- `IP.To16`. -/
def to16 (ip : IP) : IP :=
  if ip.length = 4 then v4InV6Prefix ++ ip else if ip.length = 16 then ip else []

/-- `IP.Equal`: an IPv4 address and its 16-byte form are equal. -/
def ipEqual (ip x : IP) : Bool :=
  if ip.length = x.length then ip = x
  else if ip.length = 4 ∧ x.length = 16 then x.take 12 = v4InV6Prefix ∧ ip = x.drop 12
  else if ip.length = 16 ∧ x.length = 4 then ip.take 12 = v4InV6Prefix ∧ x = ip.drop 12
  else false

/-! ## 3. `net.ParseIP` -/

/-- A parsed `netip.Addr`: which text form it had decides its bit length. -/
inductive Addr where
  | v4 (bytes : IP)
  | v6 (bytes : IP)
  deriving DecidableEq, Repr

/-- `Addr.As16`. -/
def Addr.as16 : Addr → IP
  | .v4 b => v4InV6Prefix ++ b
  | .v6 b => b

/-- `Addr.BitLen`. -/
def Addr.bitLen : Addr → Nat
  | .v4 _ => 32
  | .v6 _ => 128

/-- `netip.parseIPv4Fields`: `val` and `digLen` are the octet being read, `fields` the ones
    before it. A dot needs a digit on both sides. -/
def parseIPv4Fields : List Char → Nat → Nat → IP → Option IP
  | [], val, _, fields => if fields.length < 3 then none else some (fields ++ [UInt8.ofNat val])
  | c :: cs, val, digLen, fields =>
    if '0' ≤ c ∧ c ≤ '9' then
      if digLen = 1 ∧ val = 0 then none
      else if val * 10 + (c.toNat - '0'.toNat) > 255 then none
      else parseIPv4Fields cs (val * 10 + (c.toNat - '0'.toNat)) (digLen + 1) fields
    else if c = '.' then
      if digLen = 0 ∨ cs = [] then none
      else if fields.length = 3 then none
      else parseIPv4Fields cs 0 0 (fields ++ [UInt8.ofNat val])
    else none

/-- The value of a hex digit of either case. -/
def hexValue (c : Char) : Option Nat :=
  if '0' ≤ c ∧ c ≤ '9' then some (c.toNat - '0'.toNat)
  else if 'a' ≤ c ∧ c ≤ 'f' then some (c.toNat - 'a'.toNat + 10)
  else if 'A' ≤ c ∧ c ≤ 'F' then some (c.toNat - 'A'.toNat + 10)
  else none

/-- The inner loop of `netip.parseIPv6`: one hex group as the number of its digits, its value
    and the text behind it; `none` past four digits or 16 bits. -/
def hexGroup : List Char → Nat → Nat → Option (Nat × Nat × List Char)
  | [], off, acc => some (off, acc, [])
  | c :: cs, off, acc =>
    match hexValue c with
    | none => some (off, acc, c :: cs)
    | some d =>
      if off > 3 then none
      else if acc * 16 + d > 0xffff then none
      else hexGroup cs (off + 1) (acc * 16 + d)

/-- The two bytes of a 16-bit group. -/
def groupBytes (x : Nat) : IP := [UInt8.ofNat (x / 256), UInt8.ofNat (x % 256)]

/-- The outer loop of `netip.parseIPv6`: at most `n` more groups are read behind the bytes `ip`;
    `ell` is the position of `::`. The result also holds the text that is left. -/
def parseIPv6Loop : Nat → List Char → IP → Option Nat → Option (IP × Option Nat × List Char)
  | 0, s, ip, ell => some (ip, ell, s)
  | n + 1, s, ip, ell =>
    match hexGroup s 0 0 with
    | none => none
    | some (off, acc, rest) =>
      if off = 0 then none
      else match rest with
        | '.' :: _ =>
          -- the dotted tail is read again from the start of the group
          if ell = none ∧ ip.length ≠ 12 then none
          else if ip.length + 4 > 16 then none
          else (parseIPv4Fields s 0 0 []).map fun v4 => (ip ++ v4, ell, [])
        | [] => some (ip ++ groupBytes acc, ell, [])
        | [':'] => none
        | ':' :: ':' :: rest' =>
          if ell ≠ none then none
          else if rest' = [] then some (ip ++ groupBytes acc, some (ip.length + 2), [])
          else parseIPv6Loop n rest' (ip ++ groupBytes acc) (some (ip.length + 2))
        | ':' :: rest' => parseIPv6Loop n rest' (ip ++ groupBytes acc) ell
        | _ => none

/-- The end of `netip.parseIPv6`: nothing may be left, and `::` stands for the missing bytes. -/
def expandEllipsis : IP × Option Nat × List Char → Option IP
  | (ip, ell, s) =>
    if s ≠ [] then none
    else if ip.length < 16 then
      match ell with
      | none => none
      | some e => some (ip.take e ++ List.replicate (16 - ip.length) 0 ++ ip.drop e)
    else if ell ≠ none then none
    else some ip

/-- `netip.parseIPv6` behind the zone test: a leading `::` is taken off first. -/
def parseIPv6Text : List Char → Option IP
  | [':', ':'] => some (List.replicate 16 0)
  | ':' :: ':' :: rest => (parseIPv6Loop 8 rest [] (some 0)).bind expandEllipsis
  | s => (parseIPv6Loop 8 s [] none).bind expandEllipsis

/-- `netip.parseIPv6`. A zone (`%`) makes the address one both callers refuse. -/
def parseIPv6 (s : List Char) : Option IP :=
  if '%' ∈ s then none else parseIPv6Text s

/-- `netip.ParseAddr`: the first of `.`, `:`, `%` says which form the text has. -/
def parseAddr (s : List Char) : Option Addr :=
  match s.find? fun c => c = '.' ∨ c = ':' ∨ c = '%' with
  | some '.' => (parseIPv4Fields s 0 0 []).map .v4
  | some ':' => (parseIPv6 s).map .v6
  | _ => none

/-- `net.ParseIP`: always the 16-byte form. -/
def parseIP (s : String) : Option IP := (parseAddr s.toList).map Addr.as16

/-! ## 4. `net.ParseCIDR` -/

/-- `net.dtoi` on a whole text: a decimal number below `0xFFFFFF`. -/
def dtoi : List Char → Nat → Option Nat
  | [], n => some n
  | c :: cs, n =>
    if '0' ≤ c ∧ c ≤ '9' then
      if n * 10 + (c.toNat - '0'.toNat) ≥ 0xFFFFFF then none
      else dtoi cs (n * 10 + (c.toNat - '0'.toNat))
    else none

/-- `net.CIDRMask`: `ones` one bits, then zeros, over `bits / 8` bytes. -/
def cidrMask (ones bits : Nat) : IP :=
  (List.range (bits / 8)).map fun i =>
    UInt8.ofNat (255 - (2 ^ (8 - min 8 (ones - 8 * i)) - 1))

/-- `net.IPNet`: the masked base with its mask, and the prefix length the mask was made from
    (`Mask.Size`). -/
structure IPNet where
  ip : IP
  mask : IP
  ones : Nat
  bits : Nat
  deriving DecidableEq, Repr

/-- The slice an address is masked as. -/
def Addr.bytes : Addr → IP
  | .v4 b => b
  | .v6 b => b

/-- `net.ParseCIDR`, its `IPNet`: the text is cut at the first slash. A dotted base is masked as
    4 bytes, every other one as 16. -/
def parseCIDR (s : String) : Option IPNet :=
  match s.toList.dropWhile (· ≠ '/') with
  | [] => none
  | _ :: mask =>
    match parseAddr (s.toList.takeWhile (· ≠ '/')) with
    | none => none
    | some a =>
      if mask = [] then none
      else match dtoi mask 0 with
        | none => none
        | some n =>
          if n > a.bitLen then none
          else some ⟨List.zipWith (· &&& ·) a.bytes (cidrMask n a.bitLen), cidrMask n a.bitLen, n,
            a.bitLen⟩

/-- `IPNet.Contains`, on an address as `ParseIP` returns it. -/
def IPNet.contains (n : IPNet) (ip : IP) : Bool :=
  let nn := (to4 n.ip).getD n.ip
  -- a 16-byte mask over a base that shortens to 4 bytes keeps its last four bytes
  let m := if n.mask.length = 16 ∧ nn.length = 4 then n.mask.drop 12 else n.mask
  let x := (to4 ip).getD ip
  x.length = nn.length ∧ List.zipWith (· &&& ·) nn m = List.zipWith (· &&& ·) x m

/-! ## 5. `net.IP.String` -/

/-- `digits[d]` of `netip`. -/
def hexDigit (d : Nat) : Char := "0123456789abcdef".toList.getD d '0'

/-- `netip.appendDecimal`. -/
def decimal (x : Nat) : List Char :=
  if x ≥ 100 then [hexDigit (x / 100), hexDigit (x / 10 % 10), hexDigit (x % 10)]
  else if x ≥ 10 then [hexDigit (x / 10 % 10), hexDigit (x % 10)]
  else [hexDigit (x % 10)]

/-- `netip.appendHex`. -/
def hexText (x : Nat) : List Char :=
  if x ≥ 0x1000 then [hexDigit (x / 4096), hexDigit (x / 256 % 16), hexDigit (x / 16 % 16),
    hexDigit (x % 16)]
  else if x ≥ 0x100 then [hexDigit (x / 256 % 16), hexDigit (x / 16 % 16), hexDigit (x % 16)]
  else if x ≥ 0x10 then [hexDigit (x / 16 % 16), hexDigit (x % 16)]
  else [hexDigit (x % 16)]

/-- `Addr.string4`. -/
def string4 (ip : IP) : List Char :=
  List.intercalate ['.'] (ip.map fun b => decimal b.toNat)

/-- The 16-bit groups of a slice. -/
def groups : IP → List Nat
  | a :: b :: rest => (a.toNat * 256 + b.toNat) :: groups rest
  | _ => []

/-- The zero run `netip` writes as `::`: over all starts `i`, the first longest run of at least
    two zero groups, as its bounds. -/
def zeroRun (g : List Nat) : Option (Nat × Nat) :=
  (List.range g.length).foldl (fun best i =>
    let l := ((g.drop i).takeWhile (· = 0)).length
    if l ≥ 2 ∧ l > (best.map fun r => r.2 - r.1).getD 0 then some (i, i + l) else best) none

/-- Hex groups with a colon between them. -/
def joinHex : List Nat → List Char
  | [] => []
  | [x] => hexText x
  | x :: xs => hexText x ++ ':' :: joinHex xs

/-- `Addr.string6`. -/
def string6 (ip : IP) : List Char :=
  match zeroRun (groups ip) with
  | none => joinHex (groups ip)
  | some (i, j) => joinHex ((groups ip).take i) ++ ':' :: ':' :: joinHex ((groups ip).drop j)

/-- `net.hexString`. -/
def hexString (ip : IP) : List Char :=
  ip.flatMap fun b => [hexDigit (b.toNat / 16), hexDigit (b.toNat % 16)]

/-- `IP.String`. -/
def ipString (ip : IP) : String :=
  if ip = [] then "<nil>"
  else if ip.length ≠ 4 ∧ ip.length ≠ 16 then String.ofList ('?' :: hexString ip)
  else match to4 ip with
    | some v4 => String.ofList (string4 v4)
    | none => String.ofList (string6 ip)

/-! ## 6. `%q` -/

/-- `strconv.IsPrint`, exact up to U+00FF. Above it Go asks a table of Unicode; here all but the
    white space is printable. -/
def isPrint (c : Char) : Bool :=
  if c.toNat ≤ 0xFF then
    (0x20 ≤ c.toNat && c.toNat < 0x7F) || (0xA1 ≤ c.toNat && c.toNat != 0xAD)
  else !isSpace c

/-- `x` in `width` hex digits. -/
def hexPadded (x : Nat) : Nat → List Char
  | 0 => []
  | width + 1 => hexDigit (x / 16 ^ width % 16) :: hexPadded x width

/-- `strconv.appendEscapedRune`. -/
def escapedRune (c : Char) : List Char :=
  if c = '"' ∨ c = '\\' then ['\\', c]
  else if isPrint c then [c]
  else match c.toNat with
    | 0x07 => ['\\', 'a']
    | 0x08 => ['\\', 'b']
    | 0x0C => ['\\', 'f']
    | 0x0A => ['\\', 'n']
    | 0x0D => ['\\', 'r']
    | 0x09 => ['\\', 't']
    | 0x0B => ['\\', 'v']
    | r =>
      if r < 0x20 ∨ r = 0x7F then '\\' :: 'x' :: hexPadded r 2
      else if r < 0x10000 then '\\' :: 'u' :: hexPadded r 4
      else '\\' :: 'U' :: hexPadded r 8

/-- `strconv.Quote`. -/
def quote (s : String) : String :=
  String.ofList ('"' :: s.toList.flatMap escapedRune ++ ['"'])

end HeliosLB
