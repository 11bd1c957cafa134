import Netfilter.Settings.Json
import Netfilter.Proofs.Json.Record

/-!
# Settings that are written, edited and read

Settings of every kind are read back from what is written for them. When members
are taken out of the text, put into another order and mixed with members of
other names, the settings that are read have the defaults in place of what was
taken out, and are the same in everything else. Inside the settings of a queue
or of log groups, the settings of the socket may be edited in the same way.
-/

namespace Netfilter

open Json

theorem ite_or_ite {α : Type} (a b : Bool) (x y : α) :
    (if b then x else if a then x else y) = if a || b then x else y := by
  cases a <;> cases b <;> rfl

theorem CopyMode.codec_faithful : CopyMode.codec.Faithful := by
  intro mode
  apply Codec.enumeration_reads
  · cases mode <;> decide
  · cases mode <;> decide

namespace SocketSettings

/-- The members of `s` whose names are kept, and all others of `r`. -/
def take (keeps : String → Bool) (s r : SocketSettings) : SocketSettings where
  receiveBuffer := if keeps "recv_buffer_size" then s.receiveBuffer else r.receiveBuffer
  socketBuffer := if keeps "socket_buffer_size" then s.socketBuffer else r.socketBuffer
  hidesOverruns := if keeps "no_enobufs" then s.hidesOverruns else r.hidesOverruns

def restrict (s : SocketSettings) (keeps : String → Bool) : SocketSettings := take keeps s {}

def written (s : SocketSettings) : List (String × List Char) := known members fun m => m.write s

theorem takes : Takes members take where
  distinct := by decide
  none _ _ := rfl
  again keeps more s r := by simp only [take, ite_or_ite]
  congr keeps keeps' s r h := by
    simp only [members, Member.of, List.forall_mem_cons] at h
    simp only [take, h]

theorem gives (s : SocketSettings) : ∀ m ∈ members, m.Gives take s (m.write s) := by
  simp only [members, List.forall_mem_cons]
  refine ⟨?_, ?_, ?_, by simp⟩
  · exact Member.of_gives (Codec.word64_faithful _) fun _ => by simp [take]
  · exact Member.of_gives (Codec.word64_faithful _) fun _ => by simp [take]
  · exact Member.of_gives (Codec.boolean_faithful _) fun _ => by simp [take]

theorem reads_edit (s : SocketSettings) (e : Edit s.written) :
    codec.Reads e.text (s.restrict e.keeps) :=
  record_reads_edit takes s.gives e {}

theorem codec_faithful : codec.Faithful := by
  intro s
  have hreads := s.reads_edit (Edit.nothing s.written)
  rw [Edit.text_nothing] at hreads
  exact hreads

end SocketSettings

namespace QueueSettings

def take (keeps : String → Bool) (s r : QueueSettings) : QueueSettings where
  number := if keeps "queue_num" then s.number else r.number
  maxLength := if keeps "max_queue_len" then s.maxLength else r.maxLength
  copyMode := if keeps "copy_mode" then s.copyMode else r.copyMode
  copyRange := if keeps "copy_range" then s.copyRange else r.copyRange
  family := if keeps "family" then s.family else r.family
  flags := if keeps "flags" then s.flags else r.flags
  poolSize := if keeps "pool_size" then s.poolSize else r.poolSize
  socket := if keeps "socket" then s.socket else r.socket

def restrict (s : QueueSettings) (keeps : String → Bool) : QueueSettings := take keeps s {}

def written (s : QueueSettings) (socket : List Char) : List (String × List Char) :=
  known members fun m => if m.name = "socket" then socket else m.write s

theorem takes : Takes members take where
  distinct := by decide
  none _ _ := rfl
  again keeps more s r := by simp only [take, ite_or_ite]
  congr keeps keeps' s r h := by
    simp only [members, Member.of, List.forall_mem_cons] at h
    simp only [take, h]

theorem gives (s : QueueSettings) {text : List Char} {socket : SocketSettings}
    (h : SocketSettings.codec.Reads text socket) :
    ∀ m ∈ members,
      m.Gives take { s with socket } (if m.name = "socket" then text else m.write s) := by
  simp only [members, List.forall_mem_cons]
  refine ⟨?_, ?_, ?_, ?_, ?_, ?_, ?_, ?_, by simp⟩
  · exact Member.of_gives (Codec.word16_faithful s.number) fun _ => by simp [take]
  · exact Member.of_gives (Codec.word32_faithful s.maxLength) fun _ => by simp [take]
  · exact Member.of_gives (CopyMode.codec_faithful s.copyMode) fun _ => by simp [take]
  · exact Member.of_gives (Codec.word32_faithful s.copyRange) fun _ => by simp [take]
  · exact Member.of_gives (Codec.word16_faithful s.family) fun _ => by simp [take]
  · exact Member.of_gives
      (Codec.optional_faithful Codec.word32_faithful Codec.natural_map_numeric s.flags)
      fun _ => by simp [take]
  · exact Member.of_gives (Codec.word64_faithful s.poolSize) fun _ => by simp [take]
  · exact Member.of_gives h fun _ => by simp [take]

theorem reads_edit (s : QueueSettings) {text : List Char} {socket : SocketSettings}
    (h : SocketSettings.codec.Reads text socket) (e : Edit (s.written text)) :
    codec.Reads e.text ({ s with socket }.restrict e.keeps) :=
  record_reads_edit takes (s.gives h) e {}

theorem object_written (s : QueueSettings) :
    object (s.written (SocketSettings.codec.write s.socket)) = codec.write s := by
  simp [written, known, codec, Codec.record, members, Member.of]

theorem codec_faithful : codec.Faithful := by
  intro s
  have hreads := s.reads_edit (SocketSettings.codec_faithful s.socket) (Edit.nothing _)
  rw [Edit.text_nothing, object_written] at hreads
  exact hreads

end QueueSettings

namespace LogSettings

def take (keeps : String → Bool) (s r : LogSettings) : LogSettings where
  groups := if keeps "groups" then s.groups else r.groups
  copyMode := if keeps "copy_mode" then s.copyMode else r.copyMode
  copyRange := if keeps "copy_range" then s.copyRange else r.copyRange
  family := if keeps "family" then s.family else r.family
  bufferSize := if keeps "buffer_size" then s.bufferSize else r.bufferSize
  timeout := if keeps "timeout" then s.timeout else r.timeout
  threshold := if keeps "queue_threshold" then s.threshold else r.threshold
  flags := if keeps "flags" then s.flags else r.flags
  socket := if keeps "socket" then s.socket else r.socket

def restrict (s : LogSettings) (keeps : String → Bool) : LogSettings := take keeps s {}

def written (s : LogSettings) (socket : List Char) : List (String × List Char) :=
  known members fun m => if m.name = "socket" then socket else m.write s

theorem takes : Takes members take where
  distinct := by decide
  none _ _ := rfl
  again keeps more s r := by simp only [take, ite_or_ite]
  congr keeps keeps' s r h := by
    simp only [members, Member.of, List.forall_mem_cons] at h
    simp only [take, h]

theorem gives (s : LogSettings) {text : List Char} {socket : SocketSettings}
    (h : SocketSettings.codec.Reads text socket) :
    ∀ m ∈ members,
      m.Gives take { s with socket } (if m.name = "socket" then text else m.write s) := by
  have hoptional := Codec.optional_faithful Codec.word32_faithful Codec.natural_map_numeric
  simp only [members, List.forall_mem_cons]
  refine ⟨?_, ?_, ?_, ?_, ?_, ?_, ?_, ?_, ?_, by simp⟩
  · exact Member.of_gives
      (Codec.list_faithful Codec.word16_faithful Codec.natural_map_numeric s.groups)
      fun _ => by simp [take]
  · exact Member.of_gives (CopyMode.codec_faithful s.copyMode) fun _ => by simp [take]
  · exact Member.of_gives (Codec.word32_faithful s.copyRange) fun _ => by simp [take]
  · exact Member.of_gives (Codec.word16_faithful s.family) fun _ => by simp [take]
  · exact Member.of_gives (hoptional s.bufferSize) fun _ => by simp [take]
  · exact Member.of_gives (hoptional s.timeout) fun _ => by simp [take]
  · exact Member.of_gives (hoptional s.threshold) fun _ => by simp [take]
  · exact Member.of_gives
      (Codec.optional_faithful Codec.word16_faithful Codec.natural_map_numeric s.flags)
      fun _ => by simp [take]
  · exact Member.of_gives h fun _ => by simp [take]

theorem reads_edit (s : LogSettings) {text : List Char} {socket : SocketSettings}
    (h : SocketSettings.codec.Reads text socket) (e : Edit (s.written text)) :
    codec.Reads e.text ({ s with socket }.restrict e.keeps) :=
  record_reads_edit takes (s.gives h) e {}

theorem object_written (s : LogSettings) :
    object (s.written (SocketSettings.codec.write s.socket)) = codec.write s := by
  simp [written, known, codec, Codec.record, members, Member.of]

theorem codec_faithful : codec.Faithful := by
  intro s
  have hreads := s.reads_edit (SocketSettings.codec_faithful s.socket) (Edit.nothing _)
  rw [Edit.text_nothing, object_written] at hreads
  exact hreads

end LogSettings

/-- Settings of any kind are read back from the text they are written as, and from any edit of that
text, inside the settings of the socket too, they are read with the defaults in exactly those places
that were taken out. -/
theorem settings_read_edited :
    (∀ s : SocketSettings,
      SocketSettings.codec.read.readAll (String.ofList (SocketSettings.codec.write s)) = .ok s ∧
      ∀ e : Edit s.written,
        SocketSettings.codec.read.readAll (String.ofList e.text) = .ok (s.restrict e.keeps)) ∧
    (∀ s : QueueSettings,
      QueueSettings.codec.read.readAll (String.ofList (QueueSettings.codec.write s)) = .ok s ∧
      ∀ (inside : Edit s.socket.written) (e : Edit (s.written inside.text)),
        QueueSettings.codec.read.readAll (String.ofList e.text) =
          .ok ({ s with socket := s.socket.restrict inside.keeps }.restrict e.keeps)) ∧
    (∀ s : LogSettings,
      LogSettings.codec.read.readAll (String.ofList (LogSettings.codec.write s)) = .ok s ∧
      ∀ (inside : Edit s.socket.written) (e : Edit (s.written inside.text)),
        LogSettings.codec.read.readAll (String.ofList e.text) =
          .ok ({ s with socket := s.socket.restrict inside.keeps }.restrict e.keeps)) := by
  refine ⟨fun s => ⟨?_, fun e => ?_⟩, fun s => ⟨?_, fun inside e => ?_⟩,
    fun s => ⟨?_, fun inside e => ?_⟩⟩
  · exact (SocketSettings.codec_faithful s).readAll
  · exact (s.reads_edit e).readAll
  · exact (QueueSettings.codec_faithful s).readAll
  · exact (s.reads_edit (s.socket.reads_edit inside) e).readAll
  · exact (LogSettings.codec_faithful s).readAll
  · exact (s.reads_edit (s.socket.reads_edit inside) e).readAll

example : QueueSettings.codec.read.readAll
    "\x7b\"note\":[null,1e9],\"copy_mode\":\"meta\",\"queue_num\":7\x7d" =
      .ok { number := 7, copyMode := .description } := by cbv

end Netfilter
