/- digest: Internet addresses, the special networks, and the addresses that a reader must not reach. -/
import Mathlib.Data.BitVec

namespace AverQel.DeepSpace.Url

/-- A block of addresses: the first `prefixlen` bits are those of `network`. -/
structure Network (w : Nat) where
  network : BitVec w
  prefixlen : Nat

def Network.contains {w : Nat} (block : Network w) (ip : BitVec w) : Bool :=
  ip >>> (w - block.prefixlen) == block.network >>> (w - block.prefixlen)

/-- What `ip_address` returns. -/
inductive IpAddress
  | v4 (ip : BitVec 32)
  | v6 (ip : BitVec 128)
  deriving DecidableEq

def quad (a b c d : Nat) : BitVec 32 := .ofNat 32 (((a * 256 + b) * 256 + c) * 256 + d)

def groups (high : List Nat) : BitVec 128 :=
  .ofNat 128 ((high ++ List.replicate (8 - high.length) 0).foldl (fun n g => n * 65536 + g) 0)

def linklocalNetwork4 : Network 32 := ⟨quad 169 254 0 0, 16⟩

def loopbackNetwork4 : Network 32 := ⟨quad 127 0 0 0, 8⟩

def multicastNetwork4 : Network 32 := ⟨quad 224 0 0 0, 4⟩

def privateNetworks4 : List (Network 32) :=
  [⟨quad 0 0 0 0, 8⟩, ⟨quad 10 0 0 0, 8⟩, ⟨quad 127 0 0 0, 8⟩, ⟨quad 169 254 0 0, 16⟩,
    ⟨quad 172 16 0 0, 12⟩, ⟨quad 192 0 0 0, 24⟩, ⟨quad 192 0 0 170, 31⟩, ⟨quad 192 0 2 0, 24⟩,
    ⟨quad 192 168 0 0, 16⟩, ⟨quad 198 18 0 0, 15⟩, ⟨quad 198 51 100 0, 24⟩,
    ⟨quad 203 0 113 0, 24⟩, ⟨quad 240 0 0 0, 4⟩, ⟨quad 255 255 255 255, 32⟩]

def privateNetworksExceptions4 : List (Network 32) :=
  [⟨quad 192 0 0 9, 32⟩, ⟨quad 192 0 0 10, 32⟩]

def reservedNetwork4 : Network 32 := ⟨quad 240 0 0 0, 4⟩

def linklocalNetwork6 : Network 128 := ⟨groups [0xfe80], 10⟩

def multicastNetwork6 : Network 128 := ⟨groups [0xff00], 8⟩

def privateNetworks6 : List (Network 128) :=
  [⟨groups [0, 0, 0, 0, 0, 0, 0, 1], 128⟩, ⟨groups [], 128⟩,
    ⟨groups [0, 0, 0, 0, 0, 0xffff], 96⟩, ⟨groups [0x64, 0xff9b, 1], 48⟩, ⟨groups [0x100], 64⟩,
    ⟨groups [0x2001], 23⟩, ⟨groups [0x2001, 0xdb8], 32⟩, ⟨groups [0x2002], 16⟩,
    ⟨groups [0xfc00], 7⟩, ⟨groups [0xfe80], 10⟩]

def privateNetworksExceptions6 : List (Network 128) :=
  [⟨groups [0x2001, 1, 0, 0, 0, 0, 0, 1], 128⟩, ⟨groups [0x2001, 1, 0, 0, 0, 0, 0, 2], 128⟩,
    ⟨groups [0x2001, 3], 32⟩, ⟨groups [0x2001, 4, 0x112], 48⟩, ⟨groups [0x2001, 0x20], 28⟩,
    ⟨groups [0x2001, 0x30], 28⟩]

def reservedNetworks6 : List (Network 128) :=
  [⟨groups [], 8⟩, ⟨groups [0x100], 8⟩, ⟨groups [0x200], 7⟩, ⟨groups [0x400], 6⟩,
    ⟨groups [0x800], 5⟩, ⟨groups [0x1000], 4⟩, ⟨groups [0x4000], 3⟩, ⟨groups [0x6000], 3⟩,
    ⟨groups [0x8000], 3⟩, ⟨groups [0xa000], 3⟩, ⟨groups [0xc000], 3⟩, ⟨groups [0xe000], 4⟩,
    ⟨groups [0xf000], 5⟩, ⟨groups [0xf800], 6⟩, ⟨groups [0xfe00], 9⟩]

namespace IpAddress

def isPrivate4 (ip : BitVec 32) : Bool :=
  (privateNetworks4.any fun block => block.contains ip) &&
    privateNetworksExceptions4.all fun block => !block.contains ip

def ipv4Mapped (ip : BitVec 128) : Option (BitVec 32) :=
  if ip >>> 32 = 0xffff#128 then some (ip.setWidth 32) else none

def isPrivate : IpAddress → Bool
  | v4 ip => isPrivate4 ip
  | v6 ip =>
    match ipv4Mapped ip with
    | some mapped => isPrivate4 mapped
    | none =>
      (privateNetworks6.any fun block => block.contains ip) &&
        privateNetworksExceptions6.all fun block => !block.contains ip

def isLoopback : IpAddress → Bool
  | v4 ip => loopbackNetwork4.contains ip
  | v6 ip => ip == 1#128

def isLinkLocal : IpAddress → Bool
  | v4 ip => linklocalNetwork4.contains ip
  | v6 ip => linklocalNetwork6.contains ip

def isMulticast : IpAddress → Bool
  | v4 ip => multicastNetwork4.contains ip
  | v6 ip => multicastNetwork6.contains ip

def isUnspecified : IpAddress → Bool
  | v4 ip => ip == 0#32
  | v6 ip => ip == 0#128

def isReserved : IpAddress → Bool
  | v4 ip => reservedNetwork4.contains ip
  | v6 ip => reservedNetworks6.any fun block => block.contains ip

/-- `BLOCKED_IPS`: the services that describe a cloud machine. -/
def blockedIps : List IpAddress := [v4 (quad 169 254 169 254), v4 (quad 100 100 100 200)]

/-- None of private, loopback, link-local, multicast, reserved and blocked. -/
structure Public (address : IpAddress) : Prop where
  notPrivate : address.isPrivate = false
  notLoopback : address.isLoopback = false
  notLinkLocal : address.isLinkLocal = false
  notMulticast : address.isMulticast = false
  notReserved : address.isReserved = false
  notBlocked : address ∉ blockedIps

def refused (address : IpAddress) : Bool :=
  decide (address ∈ blockedIps) || address.isPrivate || address.isLoopback || address.isLinkLocal ||
    address.isMulticast || address.isUnspecified || address.isReserved

theorem isPrivate_of_isUnspecified {address : IpAddress} (zero : address.isUnspecified = true) :
    address.isPrivate = true := by
  cases address with
  | v4 ip =>
    obtain rfl : ip = 0#32 := beq_iff_eq.mp zero
    decide
  | v6 ip =>
    obtain rfl : ip = 0#128 := beq_iff_eq.mp zero
    decide

theorem refused_eq_false_iff {address : IpAddress} : address.refused = false ↔ address.Public := by
  simp only [refused, Bool.or_eq_false_iff, decide_eq_false_iff_not]
  constructor
  · rintro ⟨⟨⟨⟨⟨⟨blocked, isPrivate⟩, loopback⟩, linkLocal⟩, multicast⟩, _⟩, reserved⟩
    exact ⟨isPrivate, loopback, linkLocal, multicast, reserved, blocked⟩
  · intro h
    have specified : address.isUnspecified = false := by
      by_contra zero
      have inside := isPrivate_of_isUnspecified (Bool.not_eq_false _ ▸ zero)
      rw [h.notPrivate] at inside
      cases inside
    exact ⟨⟨⟨⟨⟨⟨h.notBlocked, h.notPrivate⟩, h.notLoopback⟩, h.notLinkLocal⟩, h.notMulticast⟩,
      specified⟩, h.notReserved⟩

example : (v4 (quad 127 0 0 1)).refused = true := by decide

example : (v4 (quad 93 184 216 34)).refused = false := by decide

end IpAddress

end AverQel.DeepSpace.Url
