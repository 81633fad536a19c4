import PlatformService.Lib.Bytes
import PlatformService.Lib.Decimal

/-!
# The address of a peer

`format_peer` of `net.c`: the peer string of an accepted connection, from the
numeric host and service that `getnameinfo` writes.
-/

namespace PlatformService.Net

open Lib

/-- `PS_PEER_MAX` -/
def peerMax : Nat := 64

/-- A decimal digit or a dot. -/
def isV4Char (byte : UInt8) : Bool := isDigit byte || byte = 46

/-- `AF_INET` and `AF_INET6` -/
inductive Family where
  | inet
  | inet6
  deriving DecidableEq, Repr

/-- What `getnameinfo` writes for a peer with `NI_NUMERICHOST | NI_NUMERICSERV`: the dotted numbers of an
IPv4 address, or a numeric IPv6 address with, behind a percent sign, the zone of a scoped one, which may
hold any characters; and a port. -/
structure Peer where
  family : Family
  host : Bytes
  serv : Bytes
  /-- The host is a C string. -/
  free : (0 : UInt8) ∉ host
  /-- An IPv4 address has less than `INET_ADDRSTRLEN` octets. -/
  dotted : family = .inet → host.all isV4Char = true ∧ host.length < 16
  /-- An IPv6 address has less than `INET6_ADDRSTRLEN` octets, and a zone less than `IF_NAMESIZE`. -/
  short : host.length < 46 + 16
  port : serv.all isDigit = true
  digits : serv.length ≤ 5

/-- `format_peer`, into a buffer of `PS_PEER_MAX` octets; without a result of `getnameinfo` the peer
is unknown. -/
def formatPeer : Option Peer → Bytes
  | none => ascii "unknown"
  | some peer =>
    match peer.family with
    | .inet6 => boundedCopy peerMax (91 :: (peer.host ++ [93, 58] ++ peer.serv))
    | .inet => boundedCopy peerMax (peer.host ++ [58] ++ peer.serv)

/-- The address of a peer, or what stands for it. -/
def address : Option Peer → Bytes
  | none => ascii "unknown"
  | some peer => peer.host

end PlatformService.Net
