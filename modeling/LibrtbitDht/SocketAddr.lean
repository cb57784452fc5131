import Mathlib

set_option autoImplicit false

namespace LibrtbitDht

structure SocketAddrV4 where
  ip : BitVec 32
  port : BitVec 16
deriving DecidableEq, Repr, Inhabited

structure SocketAddrV6 where
  ip : BitVec 128
  port : BitVec 16
  flowinfo : BitVec 32
  scopeId : BitVec 32
deriving DecidableEq, Repr, Inhabited

inductive IpAddr where
  | v4 (ip : BitVec 32)
  | v6 (ip : BitVec 128)
deriving DecidableEq, Repr

inductive SocketAddr where
  | v4 (addr : SocketAddrV4)
  | v6 (addr : SocketAddrV6)
deriving DecidableEq, Repr

namespace SocketAddr

def ip : SocketAddr → IpAddr
  | .v4 a => .v4 a.ip
  | .v6 a => .v6 a.ip

def port : SocketAddr → BitVec 16
  | .v4 a => a.port
  | .v6 a => a.port

def setPort (port : BitVec 16) : SocketAddr → SocketAddr
  | .v4 a => .v4 { a with port }
  | .v6 a => .v6 { a with port }

def isIpv4 : SocketAddr → Bool
  | .v4 _ => true
  | .v6 _ => false

def isIpv6 : SocketAddr → Bool
  | .v4 _ => false
  | .v6 _ => true

/-- The address that its text stands for: the text of an IPv6 address leaves the flow information out. -/
def withoutFlowinfo : SocketAddr → SocketAddr
  | .v4 a => .v4 a
  | .v6 a => .v6 { a with flowinfo := 0 }

@[simp] theorem ip_setPort (a : SocketAddr) (port : BitVec 16) : (a.setPort port).ip = a.ip := by
  cases a <;> rfl

@[simp] theorem port_setPort (a : SocketAddr) (port : BitVec 16) : (a.setPort port).port = port := by
  cases a <;> rfl

theorem setPort_port (a : SocketAddr) : a.setPort a.port = a := by
  cases a <;> rfl

@[simp] theorem isIpv4_setPort (a : SocketAddr) (port : BitVec 16) :
    (a.setPort port).isIpv4 = a.isIpv4 := by
  cases a <;> rfl

end SocketAddr
end LibrtbitDht
