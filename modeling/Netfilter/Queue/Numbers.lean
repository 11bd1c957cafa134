import Netfilter.Wire.Attribute

/-!
# Numbers of the queue subsystem

The operations, attribute kinds, commands and flags of queued packets, with the
symbols under which the kernel's headers list them.
-/

namespace Netfilter.Queue

inductive Operation
  | packet | verdict | configure | verdictBatch
  deriving DecidableEq, Repr

namespace Operation

def number : Operation → UInt8
  | packet => 0 | verdict => 1 | configure => 2 | verdictBatch => 3

def symbols : List (String × Operation) :=
  [("NFQNL_MSG_PACKET", packet), ("NFQNL_MSG_VERDICT", verdict),
    ("NFQNL_MSG_CONFIG", configure), ("NFQNL_MSG_VERDICT_BATCH", verdictBatch)]

end Operation

inductive Field
  | unspecified | packetHeader | verdictHeader | mark | timestamp | inDevice | outDevice
  | physicalInDevice | physicalOutDevice | hardwareAddress | payload | connection
  | connectionInfo | capturedLength | packetInfo | expectation | userId | groupId
  | securityContext | vlan | linkHeader | priority | controlGroup
  deriving DecidableEq, Repr

namespace Field

def number : Field → Nat
  | unspecified => 0 | packetHeader => 1 | verdictHeader => 2 | mark => 3 | timestamp => 4
  | inDevice => 5 | outDevice => 6 | physicalInDevice => 7 | physicalOutDevice => 8
  | hardwareAddress => 9 | payload => 10 | connection => 11 | connectionInfo => 12
  | capturedLength => 13 | packetInfo => 14 | expectation => 15 | userId => 16 | groupId => 17
  | securityContext => 18 | vlan => 19 | linkHeader => 20 | priority => 21 | controlGroup => 22

def rawType (f : Field) : UInt16 := UInt16.ofNat f.number

def count : Nat := 23

theorem number_lt_count (f : Field) : f.number < count := by cases f <;> decide

def symbols : List (String × Field) :=
  [("NFQA_UNSPEC", unspecified), ("NFQA_PACKET_HDR", packetHeader),
    ("NFQA_VERDICT_HDR", verdictHeader), ("NFQA_MARK", mark), ("NFQA_TIMESTAMP", timestamp),
    ("NFQA_IFINDEX_INDEV", inDevice), ("NFQA_IFINDEX_OUTDEV", outDevice),
    ("NFQA_IFINDEX_PHYSINDEV", physicalInDevice),
    ("NFQA_IFINDEX_PHYSOUTDEV", physicalOutDevice), ("NFQA_HWADDR", hardwareAddress),
    ("NFQA_PAYLOAD", payload), ("NFQA_CT", connection), ("NFQA_CT_INFO", connectionInfo),
    ("NFQA_CAP_LEN", capturedLength), ("NFQA_SKB_INFO", packetInfo), ("NFQA_EXP", expectation),
    ("NFQA_UID", userId), ("NFQA_GID", groupId), ("NFQA_SECCTX", securityContext),
    ("NFQA_VLAN", vlan), ("NFQA_L2HDR", linkHeader), ("NFQA_PRIORITY", priority),
    ("NFQA_CGROUP_CLASSID", controlGroup)]

end Field

inductive Setting
  | unspecified | command | parameters | maxLength | mask | flags
  deriving DecidableEq, Repr

namespace Setting

def number : Setting → Nat
  | unspecified => 0 | command => 1 | parameters => 2 | maxLength => 3 | mask => 4 | flags => 5

def rawType (s : Setting) : UInt16 := UInt16.ofNat s.number

def symbols : List (String × Setting) :=
  [("NFQA_CFG_UNSPEC", unspecified), ("NFQA_CFG_CMD", command),
    ("NFQA_CFG_PARAMS", parameters), ("NFQA_CFG_QUEUE_MAXLEN", maxLength),
    ("NFQA_CFG_MASK", mask), ("NFQA_CFG_FLAGS", flags)]

end Setting

inductive Command
  | nothing | bind | unbind | bindFamily | unbindFamily
  deriving DecidableEq, Repr

namespace Command

def number : Command → UInt8
  | nothing => 0 | bind => 1 | unbind => 2 | bindFamily => 3 | unbindFamily => 4

def symbols : List (String × Command) :=
  [("NFQNL_CFG_CMD_NONE", nothing), ("NFQNL_CFG_CMD_BIND", bind),
    ("NFQNL_CFG_CMD_UNBIND", unbind), ("NFQNL_CFG_CMD_PF_BIND", bindFamily),
    ("NFQNL_CFG_CMD_PF_UNBIND", unbindFamily)]

end Command

inductive Flag
  | failOpen | connections | segmentationOffload | userAndGroup | securityContext
  deriving DecidableEq, Repr

namespace Flag

def bit : Flag → UInt32
  | failOpen => 1 | connections => 2 | segmentationOffload => 4 | userAndGroup => 8
  | securityContext => 16

def symbols : List (String × Flag) :=
  [("NFQA_CFG_F_FAIL_OPEN", failOpen), ("NFQA_CFG_F_CONNTRACK", connections),
    ("NFQA_CFG_F_GSO", segmentationOffload), ("NFQA_CFG_F_UID_GID", userAndGroup),
    ("NFQA_CFG_F_SECCTX", securityContext)]

end Flag

end Netfilter.Queue
