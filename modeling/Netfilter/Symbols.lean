import Netfilter.Log.Numbers
import Netfilter.Queue.Numbers
import Netfilter.Queue.Verdict

/-!
# Symbols

The names under which programs know the numbers of this library, group by
group.
-/

namespace Netfilter.Symbols

abbrev Names := List (String × Nat)

def numbered {α : Type} (number : α → Nat) (symbols : List (String × α)) : Names :=
  symbols.map fun (name, a) => (name, number a)

def attributes : Names := [
  ("NLA_ALIGNTO", Bytes.alignUp 1),
  ("NLA_HDRLEN", Attribute.headerSize),
  ("MAX_ATTR_PAYLOAD", Attribute.maxValue),
  ("NLA_F_NESTED", Attribute.nestedBit),
  ("NLA_F_NET_BYTEORDER", Attribute.networkOrderBit),
  ("NLA_TYPE_MASK", Attribute.kindBound - 1)]

def messages : Names := [
  ("NLMSG_ALIGNTO", Bytes.alignUp 1),
  ("NLMSG_HDRLEN", Message.headerSize),
  ("NOOP", Message.noopType.toNat),
  ("ERROR", Message.errorType.toNat),
  ("DONE", Message.doneType.toNat),
  ("OVERRUN", Message.overrunType.toNat),
  ("NLM_F_REQUEST", Message.request.toNat),
  ("NLM_F_MULTI", Message.multi.toNat),
  ("NLM_F_ACK", Message.wantsAck.toNat),
  ("NLM_F_ECHO", Message.echo.toNat)]

def familyHeaders : Names := [
  ("NFNETLINK_V0", FamilyHeader.currentVersion.toNat),
  ("NFGEN_HDRLEN", FamilyHeader.size),
  ("NFNL_SUBSYS_NONE", Subsystem.general.toNat),
  ("NFNL_SUBSYS_CTNETLINK", Subsystem.connections.toNat),
  ("NFNL_SUBSYS_CTNETLINK_EXP", Subsystem.expectations.toNat),
  ("NFNL_SUBSYS_QUEUE", Subsystem.queue.toNat),
  ("NFNL_SUBSYS_ULOG", Subsystem.log.toNat)]

def sockets : Names := [("NFNL_BUFFSIZE", ({} : SocketSettings).receiveBuffer.toNat)]

def queues : Names :=
  numbered (fun o => o.number.toNat) Queue.Operation.symbols
    ++ numbered Queue.Field.number Queue.Field.symbols
    ++ numbered Queue.Setting.number Queue.Setting.symbols
    ++ numbered (fun c => c.number.toNat) Queue.Command.symbols
    ++ numbered (fun f => f.bit.toNat) Queue.Flag.symbols
    ++ [("NFQNL_COPY_NONE", CopyMode.nothing.number.toNat),
      ("NFQNL_COPY_META", CopyMode.description.number.toNat),
      ("NFQNL_COPY_PACKET", CopyMode.packet.number.toNat),
      ("NFQA_TABLE_SIZE", Queue.Field.count),
      ("NF_DROP", Queue.Disposition.drop.number.toNat),
      ("NF_ACCEPT", Queue.Disposition.accept.number.toNat),
      ("NF_STOLEN", Queue.Disposition.stolen.number.toNat),
      ("NF_QUEUE", (Queue.Disposition.queue 0).number.toNat),
      ("NF_REPEAT", Queue.Disposition.again.number.toNat),
      ("NF_STOP", Queue.Disposition.stop.number.toNat),
      ("VERDICT_HEADER_MAX", Queue.Verdict.maxHeaderSize),
      ("MAX_VERDICT_PAYLOAD", Queue.Verdict.maxPayload),
      ("MAX_COPY_RANGE", QueueSettings.maxCopyRange),
      ("DEFAULT_COPY_RANGE", ({} : QueueSettings).copyRange.toNat),
      ("DEFAULT_MAX_QUEUE_LEN", ({} : QueueSettings).maxLength.toNat),
      ("DEFAULT_POOL_SIZE", ({} : QueueSettings).poolSize.toNat)]

def logs : Names :=
  numbered (fun o => o.number.toNat) Log.Operation.symbols
    ++ numbered Log.Field.number Log.Field.symbols
    ++ numbered Log.Setting.number Log.Setting.symbols
    ++ numbered (fun c => c.number.toNat) Log.Command.symbols
    ++ numbered (fun f => f.bit.toNat) Log.Flag.symbols
    ++ [("NFULNL_COPY_NONE", CopyMode.nothing.number.toNat),
      ("NFULNL_COPY_META", CopyMode.description.number.toNat),
      ("NFULNL_COPY_PACKET", CopyMode.packet.number.toNat),
      ("NFULA_TABLE_SIZE", Log.Field.count),
      ("DEFAULT_LOG_COPY_RANGE", ({} : LogSettings).copyRange.toNat)]

end Netfilter.Symbols
