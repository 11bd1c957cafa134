import Netfilter.Json.Record
import Netfilter.Settings.Basic

/-!
# Settings as JSON

The members of each kind of settings, in the order in which they are written.
-/

namespace Netfilter

open Json (Codec Member)

def CopyMode.codec : Codec CopyMode := .enumeration CopyMode.name CopyMode.all

namespace SocketSettings

def members : List (Member SocketSettings) := [
  .of "recv_buffer_size" .word64 receiveBuffer fun s receiveBuffer => { s with receiveBuffer },
  .of "socket_buffer_size" .word64 socketBuffer fun s socketBuffer => { s with socketBuffer },
  .of "no_enobufs" .boolean hidesOverruns fun s hidesOverruns => { s with hidesOverruns }]

def codec : Codec SocketSettings := .record {} members

end SocketSettings

namespace QueueSettings

def members : List (Member QueueSettings) := [
  .of "queue_num" .word16 number fun s number => { s with number },
  .of "max_queue_len" .word32 maxLength fun s maxLength => { s with maxLength },
  .of "copy_mode" CopyMode.codec copyMode fun s copyMode => { s with copyMode },
  .of "copy_range" .word32 copyRange fun s copyRange => { s with copyRange },
  .of "family" .word16 family fun s family => { s with family },
  .of "flags" (.optional .word32) flags fun s flags => { s with flags },
  .of "pool_size" .word64 poolSize fun s poolSize => { s with poolSize },
  .of "socket" SocketSettings.codec socket fun s socket => { s with socket }]

def codec : Codec QueueSettings := .record {} members

end QueueSettings

namespace LogSettings

def members : List (Member LogSettings) := [
  .of "groups" (.list .word16) groups fun s groups => { s with groups },
  .of "copy_mode" CopyMode.codec copyMode fun s copyMode => { s with copyMode },
  .of "copy_range" .word32 copyRange fun s copyRange => { s with copyRange },
  .of "family" .word16 family fun s family => { s with family },
  .of "buffer_size" (.optional .word32) bufferSize fun s bufferSize => { s with bufferSize },
  .of "timeout" (.optional .word32) timeout fun s timeout => { s with timeout },
  .of "queue_threshold" (.optional .word32) threshold fun s threshold => { s with threshold },
  .of "flags" (.optional .word16) flags fun s flags => { s with flags },
  .of "socket" SocketSettings.codec socket fun s socket => { s with socket }]

def codec : Codec LogSettings := .record {} members

end LogSettings

end Netfilter
