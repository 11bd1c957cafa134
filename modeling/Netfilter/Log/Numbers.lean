import Netfilter.Wire.Attribute

/-!
# Numbers of the log subsystem

The operations, attribute kinds, commands and flags of logged packets, with the
symbols under which the kernel's headers list them.
-/

namespace Netfilter.Log

inductive Operation
  | packet | configure
  deriving DecidableEq, Repr

namespace Operation

def number : Operation → UInt8
  | packet => 0 | configure => 1

def symbols : List (String × Operation) :=
  [("NFULNL_MSG_PACKET", packet), ("NFULNL_MSG_CONFIG", configure)]

end Operation

inductive Field
  | unspecified | packetHeader | mark | timestamp | inDevice | outDevice | physicalInDevice
  | physicalOutDevice | hardwareAddress | payload | rulePrefix | userId | sequence
  | globalSequence | groupId | hardwareType | hardwareHeader | hardwareLength | connection
  | connectionInfo
  deriving DecidableEq, Repr

namespace Field

def number : Field → Nat
  | unspecified => 0 | packetHeader => 1 | mark => 2 | timestamp => 3 | inDevice => 4
  | outDevice => 5 | physicalInDevice => 6 | physicalOutDevice => 7 | hardwareAddress => 8
  | payload => 9 | rulePrefix => 10 | userId => 11 | sequence => 12 | globalSequence => 13
  | groupId => 14 | hardwareType => 15 | hardwareHeader => 16 | hardwareLength => 17
  | connection => 18 | connectionInfo => 19

def rawType (f : Field) : UInt16 := UInt16.ofNat f.number

def count : Nat := 20

theorem number_lt_count (f : Field) : f.number < count := by cases f <;> decide

def symbols : List (String × Field) :=
  [("NFULA_UNSPEC", unspecified), ("NFULA_PACKET_HDR", packetHeader), ("NFULA_MARK", mark),
    ("NFULA_TIMESTAMP", timestamp), ("NFULA_IFINDEX_INDEV", inDevice),
    ("NFULA_IFINDEX_OUTDEV", outDevice), ("NFULA_IFINDEX_PHYSINDEV", physicalInDevice),
    ("NFULA_IFINDEX_PHYSOUTDEV", physicalOutDevice), ("NFULA_HWADDR", hardwareAddress),
    ("NFULA_PAYLOAD", payload), ("NFULA_PREFIX", rulePrefix), ("NFULA_UID", userId),
    ("NFULA_SEQ", sequence), ("NFULA_SEQ_GLOBAL", globalSequence), ("NFULA_GID", groupId),
    ("NFULA_HWTYPE", hardwareType), ("NFULA_HWHEADER", hardwareHeader),
    ("NFULA_HWLEN", hardwareLength), ("NFULA_CT", connection),
    ("NFULA_CT_INFO", connectionInfo)]

end Field

inductive Setting
  | unspecified | command | mode | bufferSize | timeout | threshold | flags
  deriving DecidableEq, Repr

namespace Setting

def number : Setting → Nat
  | unspecified => 0 | command => 1 | mode => 2 | bufferSize => 3 | timeout => 4
  | threshold => 5 | flags => 6

def rawType (s : Setting) : UInt16 := UInt16.ofNat s.number

def symbols : List (String × Setting) :=
  [("NFULA_CFG_UNSPEC", unspecified), ("NFULA_CFG_CMD", command), ("NFULA_CFG_MODE", mode),
    ("NFULA_CFG_NLBUFSIZ", bufferSize), ("NFULA_CFG_TIMEOUT", timeout),
    ("NFULA_CFG_QTHRESH", threshold), ("NFULA_CFG_FLAGS", flags)]

end Setting

inductive Command
  | nothing | bind | unbind | bindFamily | unbindFamily
  deriving DecidableEq, Repr

namespace Command

def number : Command → UInt8
  | nothing => 0 | bind => 1 | unbind => 2 | bindFamily => 3 | unbindFamily => 4

def symbols : List (String × Command) :=
  [("NFULNL_CFG_CMD_NONE", nothing), ("NFULNL_CFG_CMD_BIND", bind),
    ("NFULNL_CFG_CMD_UNBIND", unbind), ("NFULNL_CFG_CMD_PF_BIND", bindFamily),
    ("NFULNL_CFG_CMD_PF_UNBIND", unbindFamily)]

end Command

inductive Flag
  | sequence | globalSequence | connections
  deriving DecidableEq, Repr

namespace Flag

def bit : Flag → UInt16
  | sequence => 1 | globalSequence => 2 | connections => 4

def symbols : List (String × Flag) :=
  [("NFULNL_CFG_F_SEQ", sequence), ("NFULNL_CFG_F_SEQ_GLOBAL", globalSequence),
    ("NFULNL_CFG_F_CONNTRACK", connections)]

end Flag

end Netfilter.Log
