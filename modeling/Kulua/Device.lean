import Mathlib.Tactic

/-! `sync-core/src/types.rs`: the addresses under which adb knows a device, and the
device record. A UUID is a number that is drawn fresh; only its being different
from all others matters. -/

namespace Kulua

def containsText (text pattern : String) : Bool := decide (pattern.toList <:+: text.toList)

inductive DeviceAddrKind where
  | usb
  | mdns
  | ip
  deriving DecidableEq, Repr

namespace DeviceAddrKind

def classify (addr : String) : DeviceAddrKind :=
  if containsText addr ".local:" || containsText addr "._tcp" then .mdns
  else if addr.toList.contains ':' then .ip
  else .usb

def priority : DeviceAddrKind → Nat
  | usb => 3
  | mdns => 2
  | ip => 1

end DeviceAddrKind

structure DeviceIdentity where
  usb : Option String
  mdns : Option String
  ip : Option String
  deriving DecidableEq, Repr

namespace DeviceIdentity

def empty : DeviceIdentity := ⟨none, none, none⟩

/-- Slots that are set in `other` overwrite those of `self`. -/
def merge (self other : DeviceIdentity) : DeviceIdentity where
  usb := other.usb.or self.usb
  mdns := other.mdns.or self.mdns
  ip := other.ip.or self.ip

def setByKind (self : DeviceIdentity) (addr : String) : DeviceAddrKind → DeviceIdentity
  | .usb => { self with usb := some addr }
  | .mdns => { self with mdns := some addr }
  | .ip => { self with ip := some addr }

def containsAddr (self : DeviceIdentity) (addr : String) : Bool :=
  self.usb = some addr || self.mdns = some addr || self.ip = some addr

/-- The identity of a single address. -/
def ofAddr (addr : String) : DeviceIdentity := empty.setByKind addr (DeviceAddrKind.classify addr)

theorem containsAddr_ofAddr {addr other : String} (h : (ofAddr addr).containsAddr other = true) :
    other = addr := by
  unfold ofAddr at h
  cases hk : DeviceAddrKind.classify addr <;> simp_all [setByKind, containsAddr, empty]

/-- Merging in one address adds no other address. -/
theorem containsAddr_merge {self : DeviceIdentity} {addr other : String}
    (h : (self.merge (ofAddr addr)).containsAddr other = true) :
    other = addr ∨ self.containsAddr other = true := by
  unfold ofAddr at h
  cases hk : DeviceAddrKind.classify addr <;>
    simp_all [setByKind, containsAddr, merge, empty] <;> grind

end DeviceIdentity

inductive DeviceState where
  | device
  | offline
  | unauthorized
  | unknown (text : String)
  deriving DecidableEq, Repr

structure Device where
  uuid : Nat
  id : String
  serial : String
  state : DeviceState
  name : String
  identity : DeviceIdentity
  deriving DecidableEq, Repr

end Kulua
