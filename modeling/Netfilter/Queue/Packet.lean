import Netfilter.Pool.Basic
import Netfilter.Queue.PacketHeader
import Netfilter.Queue.Verdict
import Netfilter.Text.Hex

/-!
# Packets

A packet waiting for its verdict: what the kernel says about it, a leased buffer
with its contents, and where its verdict goes.
-/

namespace Netfilter.Queue

structure Packet where
  info : PacketInfo
  lease : Lease
  handle : VerdictHandle
  deriving Repr

namespace Packet

def payload (p : Packet) : Bytes := p.lease.data

def queue (p : Packet) : UInt16 := p.handle.queue

def describeOption (n : Option UInt32) : String :=
  match n with
  | none => "None"
  | some n => s!"Some({n})"

def describe (p : Packet) : String :=
  "Packet \x7b id: " ++ toString p.info.id ++ ", queue: " ++ toString p.queue
    ++ ", hw_protocol: 0x" ++ Hex.fixed 4 p.info.protocol.toNat
    ++ ", hook: " ++ toString p.info.hook ++ ", mark: " ++ describeOption p.info.mark
    ++ ", indev: " ++ describeOption p.info.inDevice
    ++ ", payload_len: " ++ toString p.payload.length ++ " \x7d"

end Packet

end Netfilter.Queue
