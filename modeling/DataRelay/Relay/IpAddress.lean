import DataRelay.Url

/-! IP addresses: what `ipaddress.ip_address` reads, and the predicates of an address.

    The predicates look an address up in tables of networks. `isPrivate` and `isGlobal` follow the
    registries of special-purpose addresses and exclude each other; only the shared address space
    `100.64.0.0/10` is neither. -/

namespace DataRelay.Relay

/-- An address also stands for its text: the text of an address reads as that address. -/
inductive IpAddress where
  | v4 (n : Fin (2 ^ 32))
  | v6 (n : Fin (2 ^ 128)) (scope : Option (List Char))
deriving DecidableEq

/-- The addresses of `bits` bits that share the first `len` bits of `base`. -/
structure IpNetwork where
  base : ℕ
  len : ℕ

namespace IpNetwork

/-- `a.b.c.d/len`. -/
def v4 (a b c d len : ℕ) : IpNetwork := ⟨((a * 256 + b) * 256 + c) * 256 + d, len⟩

/-- An IPv6 network by its first groups of 16 bits. -/
def v6 (groups : List ℕ) (len : ℕ) : IpNetwork :=
  ⟨(groups ++ List.replicate (8 - groups.length) 0).foldl (fun n g => n * 65536 + g) 0, len⟩

def contains (net : IpNetwork) (bits n : ℕ) : Bool :=
  n >>> (bits - net.len) = net.base >>> (bits - net.len)

end IpNetwork

/-! ### Reading -/

/-- The value of a decimal octet. -/
def octet (cs : List Char) : ℕ := cs.foldl (fun n c => 10 * n + (c.toNat - 48)) 0

/-- The value of a hexadecimal digit. -/
def hexValue (c : Char) : ℕ :=
  if Url.isDigit c then c.toNat - 48 else if c.toNat < 97 then c.toNat - 55 else c.toNat - 87

/-- The value of a group of hexadecimal digits. -/
def hextet (cs : List Char) : ℕ := cs.foldl (fun n c => 16 * n + hexValue c) 0

/-- The four octets as one number. -/
def v4Value (cs : List Char) : ℕ :=
  ((Url.splitOn '.' cs).map octet).foldl (fun n b => n * 256 + b) 0

/-- The groups of an IPv6 text that is well formed: where a part between others is empty, zeros fill
    the place. -/
def groups (parts : List (List Char)) : List ℕ :=
  let inner := (List.range parts.length).filter fun i =>
    0 < i && i + 1 < parts.length && parts.getD i [] = []
  match inner with
  | [] => parts.map hextet
  | skip :: _ =>
    let hi := ((parts.take skip).filter (· ≠ [])).map hextet
    let lo := ((parts.drop (skip + 1)).filter (· ≠ [])).map hextet
    hi ++ List.replicate (8 - hi.length - lo.length) 0 ++ lo

/-- The eight groups as one number, those that `::` stands for being zero. -/
def v6Value (addr : List Char) : ℕ :=
  let parts := Url.splitOn ':' addr
  let suffix := parts.getLast?.getD []
  let gs := if suffix.contains '.' then
      groups (parts.dropLast ++ [['0'], ['0']]) |>.dropLast.dropLast |>.append
        [v4Value suffix / 65536, v4Value suffix % 65536]
    else groups parts
  gs.foldl (fun n g => n * 65536 + g) 0

/-- `ipaddress.ip_address`. -/
def ipAddress (s : String) : Option IpAddress :=
  let cs := s.toList
  if Url.isIPv4 cs then some (.v4 (Fin.ofNat _ (v4Value cs)))
  else if Url.isIPv6 cs then
    let (addr, zoned, scope) := Url.partition '%' cs
    some (.v6 (Fin.ofNat _ (v6Value addr)) (if zoned then some scope else none))
  else none

/-! ### Writing -/

/-- The first longest run of zeros in a list of groups: its start and its length. -/
def longestZeros : ℕ → List ℕ → ℕ × ℕ
  | _, [] => (0, 0)
  | i, g :: gs =>
    let here := ((g :: gs).takeWhile (· = 0)).length
    let later := longestZeros (i + 1) gs
    if later.2 ≤ here then (i, here) else later

/-- A number in hexadecimal digits. -/
def hexDigits (n : ℕ) : String := String.ofList (Nat.toDigits 16 n)

/-- `_compress_hextets`, joined: the first longest run of more than one zero group is left out. -/
def compressed (gs : List ℕ) : String :=
  let (start, len) := longestZeros 0 gs
  if 1 < len then
    ":".intercalate ((gs.take start).map hexDigits) ++ "::" ++
      ":".intercalate ((gs.drop (start + len)).map hexDigits)
  else ":".intercalate (gs.map hexDigits)

/-- `str(ip)`. -/
def IpAddress.text : IpAddress → String
  | .v4 n => ".".intercalate ([24, 16, 8, 0].map fun k => toString (n.val >>> k % 256))
  | .v6 n scope =>
    compressed ([112, 96, 80, 64, 48, 32, 16, 0].map fun k => n.val >>> k % 65536) ++
      (scope.map fun cs => "%" ++ String.ofList cs).getD ""

/-! ### Tables -/

/-- `_private_networks` of version 4. -/
def private4 : List IpNetwork :=
  [.v4 0 0 0 0 8, .v4 10 0 0 0 8, .v4 127 0 0 0 8, .v4 169 254 0 0 16, .v4 172 16 0 0 12,
    .v4 192 0 0 0 24, .v4 192 0 0 170 31, .v4 192 0 2 0 24, .v4 192 168 0 0 16, .v4 198 18 0 0 15,
    .v4 198 51 100 0 24, .v4 203 0 113 0 24, .v4 240 0 0 0 4, .v4 255 255 255 255 32]

/-- `_private_networks_exceptions` of version 4. -/
def privateExceptions4 : List IpNetwork := [.v4 192 0 0 9 32, .v4 192 0 0 10 32]

/-- `_private_networks` of version 6. -/
def private6 : List IpNetwork :=
  [.v6 [0, 0, 0, 0, 0, 0, 0, 1] 128, .v6 [] 128, .v6 [0, 0, 0, 0, 0, 0xffff] 96,
    .v6 [0x64, 0xff9b, 1] 48, .v6 [0x100] 64, .v6 [0x2001] 23, .v6 [0x2001, 0xdb8] 32,
    .v6 [0x2002] 16, .v6 [0xfc00] 7, .v6 [0xfe80] 10]

/-- `_private_networks_exceptions` of version 6. -/
def privateExceptions6 : List IpNetwork :=
  [.v6 [0x2001, 1, 0, 0, 0, 0, 0, 1] 128, .v6 [0x2001, 1, 0, 0, 0, 0, 0, 2] 128,
    .v6 [0x2001, 3] 32, .v6 [0x2001, 4, 0x112] 48, .v6 [0x2001, 0x20] 28, .v6 [0x2001, 0x30] 28]

/-- `_reserved_networks`. -/
def reserved6 : List IpNetwork :=
  [.v6 [] 8, .v6 [0x100] 8, .v6 [0x200] 7, .v6 [0x400] 6, .v6 [0x800] 5, .v6 [0x1000] 4,
    .v6 [0x4000] 3, .v6 [0x6000] 3, .v6 [0x8000] 3, .v6 [0xa000] 3, .v6 [0xc000] 3, .v6 [0xe000] 4,
    .v6 [0xf000] 5, .v6 [0xf800] 6, .v6 [0xfe00] 9]

/-- One of the networks contains the address. -/
def within (nets : List IpNetwork) (bits n : ℕ) : Bool := nets.any fun net => net.contains bits n

/-! ### Predicates -/

/-- The IPv4 address that an IPv4-mapped address carries. -/
def mapped (n : ℕ) : Option ℕ := if n >>> 32 = 0xffff then some (n % 2 ^ 32) else none

/-- `is_private` of a version 4 address. -/
def private4Of (n : ℕ) : Bool := within private4 32 n && !within privateExceptions4 32 n

/-- The shared address space, `100.64.0.0/10`. -/
def shared4Of (n : ℕ) : Bool := (IpNetwork.v4 100 64 0 0 10).contains 32 n

namespace IpAddress

/-- `is_loopback`. -/
def isLoopback : IpAddress → Bool
  | .v4 n => (IpNetwork.v4 127 0 0 0 8).contains 32 n
  | .v6 n _ => n.val = 1

/-- `is_private`. -/
def isPrivate : IpAddress → Bool
  | .v4 n => private4Of n
  | .v6 n _ => match mapped n with
    | some m => private4Of m
    | none => within private6 128 n && !within privateExceptions6 128 n

/-- `is_link_local`. -/
def isLinkLocal : IpAddress → Bool
  | .v4 n => (IpNetwork.v4 169 254 0 0 16).contains 32 n
  | .v6 n _ => (IpNetwork.v6 [0xfe80] 10).contains 128 n

/-- `is_multicast`. -/
def isMulticast : IpAddress → Bool
  | .v4 n => (IpNetwork.v4 224 0 0 0 4).contains 32 n
  | .v6 n _ => (IpNetwork.v6 [0xff00] 8).contains 128 n

/-- `is_reserved`. -/
def isReserved : IpAddress → Bool
  | .v4 n => (IpNetwork.v4 240 0 0 0 4).contains 32 n
  | .v6 n _ => within reserved6 128 n

/-- `is_unspecified`. -/
def isUnspecified : IpAddress → Bool
  | .v4 n => n.val = 0
  | .v6 n _ => n.val = 0

/-- In the shared address space. -/
def isShared : IpAddress → Bool
  | .v4 n => shared4Of n
  | .v6 n _ => (mapped n).any shared4Of

/-- Globally reachable. -/
def isGlobal : IpAddress → Bool
  | .v4 n => !shared4Of n && !private4Of n
  | .v6 n _ => match mapped n with
    | some m => !shared4Of m && !private4Of m
    | none => !(within private6 128 n && !within privateExceptions6 128 n)

/-- What is neither private nor shared is globally reachable. -/
theorem isGlobal_eq (ip : IpAddress) : ip.isGlobal = (!ip.isShared && !ip.isPrivate) := by
  cases ip with
  | v4 n => rfl
  | v6 n scope =>
    simp only [isGlobal, isShared, isPrivate]
    cases mapped n with
    | none => rfl
    | some m => rfl

end IpAddress

end DataRelay.Relay
