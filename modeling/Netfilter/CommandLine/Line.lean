import Netfilter.CommandLine.Invocation
import Netfilter.Json.Record
import Netfilter.Log.Entry
import Netfilter.Queue.Packet
import Netfilter.Text.Quoted

/-!
# Lines of output

A packet or a log entry is shown on one line, either as words with a space
between any two of them, or as a JSON record whose members stand in the order of
their names.
-/

namespace Netfilter.CommandLine

namespace Line

def ofWords (words : List (List Char)) : List Char := [' '].intercalate words

def pair? {α : Type} (name : String) (write : α → List Char) (value : Option α) :
    List (List Char) :=
  match value with
  | none => []
  | some a => [name.toList, write a]

def decimal (n : Nat) : List Char := Json.Number.write n

def hexadecimal (width n : Nat) : List Char := "0x".toList ++ (Hex.fixed width n).toList

def number? (n : Option Nat) : List Char :=
  match n with
  | none => "null".toList
  | some n => Json.Number.write n

def word? (n : Option UInt32) : List Char := number? (n.map (·.toNat))

def bytes (bytes : Bytes) : List Char := Json.array (bytes.map fun b => Json.Number.write b.toNat)

def text (text : String) : List Char := Json.Quoted.write text.toList

def packetWords (p : Queue.Packet) : List (List Char) := [
    "queue".toList, decimal p.queue.toNat,
    "id".toList, decimal p.info.id.toNat,
    "proto".toList, hexadecimal 4 p.info.protocol.toNat,
    "hook".toList, decimal p.info.hook.toNat,
    "len".toList, decimal p.payload.length]
  ++ pair? "in" (fun n => decimal n.toNat) p.info.inDevice
  ++ pair? "out" (fun n => decimal n.toNat) p.info.outDevice
  ++ pair? "mark" (fun n => hexadecimal 1 n.toNat) p.info.mark

def packetJson (p : Queue.Packet) : List Char := Json.object [
  ("hook", decimal p.info.hook.toNat),
  ("hw_protocol", decimal p.info.protocol.toNat),
  ("id", decimal p.info.id.toNat),
  ("indev", word? p.info.inDevice),
  ("len", decimal p.payload.length),
  ("mark", word? p.info.mark),
  ("outdev", word? p.info.outDevice),
  ("queue", decimal p.queue.toNat)]

def ofPacket (format : Format) (p : Queue.Packet) : List Char :=
  match format with
  | .text => ofWords (packetWords p)
  | .json => packetJson p

def summaryWords (s : Ipv4.Summary) : List (List Char) :=
  [s.source.text.toList] ++ pair? "port" (fun n => decimal n.toNat) s.sourcePort
    ++ [">".toList, s.destination.text.toList]
    ++ pair? "port" (fun n => decimal n.toNat) s.destinationPort
    ++ ["proto".toList, decimal s.protocol.toNat, "len".toList, decimal s.length.toNat]

def rulePrefix (e : Log.Entry) : String := e.rulePrefix.getD ""

def entryWords (e : Log.Entry) : List (List Char) :=
  ["group".toList, decimal e.group.toNat]
    ++ (if (rulePrefix e).isEmpty then [] else [Quoted.write (rulePrefix e).toList])
    ++ match e.ipv4? with
      | some s => summaryWords s
      | none => ["len".toList, decimal e.payload.length]

def timestampJson (t : Log.Timestamp) : List Char := Json.object [
  ("nanos", decimal t.nanoseconds.toNat),
  ("secs", decimal t.seconds.toNat)]

def summaryJson (s : Ipv4.Summary) : List Char := Json.object [
  ("dst", text s.destination.text),
  ("dst_port", number? (s.destinationPort.map (·.toNat))),
  ("protocol", decimal s.protocol.toNat),
  ("src", text s.source.text),
  ("src_port", number? (s.sourcePort.map (·.toNat))),
  ("total_len", decimal s.length.toNat)]

def orNull {α : Type} (write : α → List Char) (a : Option α) : List Char :=
  match a with
  | none => "null".toList
  | some a => write a

def fieldsJson (e : Log.Entry) : List Char := Json.object [
  ("family", decimal e.family.toNat),
  ("gid", word? e.groupId),
  ("group", decimal e.group.toNat),
  ("hook", decimal e.hook.toNat),
  ("hw_protocol", decimal e.protocol.toNat),
  ("hwaddr", orNull bytes e.hardwareAddress),
  ("indev", word? e.inDevice),
  ("mark", word? e.mark),
  ("outdev", word? e.outDevice),
  ("payload", bytes e.payload),
  ("physindev", word? e.physicalInDevice),
  ("physoutdev", word? e.physicalOutDevice),
  ("prefix", orNull text e.rulePrefix),
  ("seq", word? e.sequence),
  ("seq_global", word? e.globalSequence),
  ("timestamp", orNull timestampJson e.timestamp),
  ("uid", word? e.userId)]

def entryJson (e : Log.Entry) : List Char := Json.object [
  ("entry", fieldsJson e),
  ("ipv4", orNull summaryJson e.ipv4?)]

def ofEntry (format : Format) (prefixOnly : Bool) (e : Log.Entry) : List Char :=
  match format, prefixOnly with
  | .text, true => (rulePrefix e).toList
  | .json, true => Json.object [("prefix", text (rulePrefix e))]
  | .text, false => ofWords (entryWords e)
  | .json, false => entryJson e

def written (line : List Char) : List Char := line ++ ['\n']

end Line

end Netfilter.CommandLine
