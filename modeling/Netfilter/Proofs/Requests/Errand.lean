import Netfilter.Log.Request
import Netfilter.Proofs.Link.Sending
import Netfilter.Proofs.Wire.Fields
import Netfilter.Proofs.Wire.Value
import Netfilter.Queue.Request

/-!
# What a request says

A request is sent as one message: its header asks for an acknowledgement, its
family header names the queue or the group, and its attributes are those of the
request. Read back, they give the arguments of the request.
-/

namespace Netfilter

inductive Errand
  | queue (settings : QueueSettings) (r : Queue.Request)
  | log (family : UInt16) (r : Log.Request)
  deriving Repr

namespace Errand

def draft : Errand → Draft
  | queue settings r => r.draft settings
  | log family r => r.draft family

def datagram (x : Errand) (port seq : UInt32) : Bytes :=
  { Channel.asking x.draft with seq, port }.finish

def type : Errand → UInt16
  | queue _ _ => Message.typeOf Subsystem.queue Queue.Operation.configure.number
  | log _ _ => Message.typeOf Subsystem.log Log.Operation.configure.number

/-- Only log groups name a family in the header: the low byte of the one they are bound to. -/
def family : Errand → UInt8
  | log family .unbindFamily | log family .bindFamily | log family (.bind _) => family.toUInt8
  | _ => FamilyHeader.unspecified

/-- The queue or the group that is meant; commands about a protocol family name none. -/
def resource : Errand → UInt16
  | queue _ .unbindFamily | queue _ .bindFamily => 0
  | queue _ (.bind number) => number
  | queue settings _ => settings.number
  | log _ .unbindFamily | log _ .bindFamily => 0
  | log _ (.bind group) | log _ (.unbind group) | log _ (.set group _) => group

def IsWord32 (n : UInt32) (value : Bytes) : Prop := value.length = 4 ∧ Value.word32 value = .ok n

def IsWord16 (n : UInt16) (value : Bytes) : Prop := value.length = 2 ∧ Value.word16 value = .ok n

def IsQueueCommand (c : Queue.Command) (family : UInt16) (value : Bytes) : Prop :=
  value.length = 4 ∧ Value.word8 value = .ok c.number ∧ Value.word16 (value.drop 2) = .ok family

def IsLogCommand (c : Log.Command) (value : Bytes) : Prop :=
  value.length = 1 ∧ Value.word8 value = .ok c.number

def IsMode (size : Nat) (mode : CopyMode) (range : UInt32) (value : Bytes) : Prop :=
  value.length = size ∧ Value.word32 value = .ok range ∧
    Value.word8 (value.drop 4) = .ok mode.number

def Reads (items : List Attribute) : Errand → Prop
  | queue settings .unbindFamily => ∃ v, items = [⟨Queue.Setting.command.rawType, v⟩] ∧
      IsQueueCommand .unbindFamily settings.family v
  | queue settings .bindFamily => ∃ v, items = [⟨Queue.Setting.command.rawType, v⟩] ∧
      IsQueueCommand .bindFamily settings.family v
  | queue _ (.bind _) => ∃ v, items = [⟨Queue.Setting.command.rawType, v⟩] ∧
      IsQueueCommand .bind 0 v
  | queue _ (.setMode mode range) => ∃ v, items = [⟨Queue.Setting.parameters.rawType, v⟩] ∧
      IsMode 5 mode range v
  | queue _ (.setMaxLength length) => ∃ v, items = [⟨Queue.Setting.maxLength.rawType, v⟩] ∧
      IsWord32 length v
  | queue _ (.setFlags mask flags) => ∃ v w,
      items = [⟨Queue.Setting.mask.rawType, v⟩, ⟨Queue.Setting.flags.rawType, w⟩] ∧
        IsWord32 mask v ∧ IsWord32 flags w
  | queue _ .unbind => ∃ v, items = [⟨Queue.Setting.command.rawType, v⟩] ∧
      IsQueueCommand .unbind 0 v
  | log _ .unbindFamily => ∃ v, items = [⟨Log.Setting.command.rawType, v⟩] ∧
      IsLogCommand .unbindFamily v
  | log _ .bindFamily => ∃ v, items = [⟨Log.Setting.command.rawType, v⟩] ∧
      IsLogCommand .bindFamily v
  | log _ (.bind _) => ∃ v, items = [⟨Log.Setting.command.rawType, v⟩] ∧ IsLogCommand .bind v
  | log _ (.unbind _) => ∃ v, items = [⟨Log.Setting.command.rawType, v⟩] ∧ IsLogCommand .unbind v
  | log _ (.set _ (.mode mode range)) => ∃ v, items = [⟨Log.Setting.mode.rawType, v⟩] ∧
      IsMode 6 mode range v
  | log _ (.set _ (.bufferSize n)) => ∃ v, items = [⟨Log.Setting.bufferSize.rawType, v⟩] ∧
      IsWord32 n v
  | log _ (.set _ (.timeout n)) => ∃ v, items = [⟨Log.Setting.timeout.rawType, v⟩] ∧ IsWord32 n v
  | log _ (.set _ (.threshold n)) => ∃ v, items = [⟨Log.Setting.threshold.rawType, v⟩] ∧
      IsWord32 n v
  | log _ (.set _ (.flags n)) => ∃ v, items = [⟨Log.Setting.flags.rawType, v⟩] ∧ IsWord16 n v

/-- The bytes are one message and nothing else. It bears this number, comes from this port, asks for
an acknowledgement and says what is asked. -/
def Says (x : Errand) (port seq : UInt32) (data : Bytes) : Prop :=
  ∃ header payload rest items, Message.walk data = ⟨[⟨header, payload⟩], none⟩ ∧
    header.length.toNat = data.length ∧ header.type = x.type ∧
    header.flags = Message.request ||| Message.wantsAck ∧ header.seq = seq ∧ header.port = port ∧
    FamilyHeader.read payload = .ok (⟨x.family, 0, x.resource⟩, rest) ∧
    Attribute.walk rest = ⟨items, none⟩ ∧ x.Reads items

def attributes : Errand → List Attribute
  | queue settings .unbindFamily =>
      [⟨Queue.Setting.command.rawType, Queue.Request.command .unbindFamily settings.family⟩]
  | queue settings .bindFamily =>
      [⟨Queue.Setting.command.rawType, Queue.Request.command .bindFamily settings.family⟩]
  | queue _ (.bind _) => [⟨Queue.Setting.command.rawType, Queue.Request.command .bind 0⟩]
  | queue _ (.setMode mode range) =>
      [⟨Queue.Setting.parameters.rawType, Bytes.big 4 range.toNat ++ [mode.number]⟩]
  | queue _ (.setMaxLength length) =>
      [⟨Queue.Setting.maxLength.rawType, Bytes.big 4 length.toNat⟩]
  | queue _ (.setFlags mask flags) =>
      [⟨Queue.Setting.mask.rawType, Bytes.big 4 mask.toNat⟩,
        ⟨Queue.Setting.flags.rawType, Bytes.big 4 flags.toNat⟩]
  | queue _ .unbind => [⟨Queue.Setting.command.rawType, Queue.Request.command .unbind 0⟩]
  | log _ .unbindFamily => [⟨Log.Setting.command.rawType, [Log.Command.unbindFamily.number]⟩]
  | log _ .bindFamily => [⟨Log.Setting.command.rawType, [Log.Command.bindFamily.number]⟩]
  | log _ (.bind _) => [⟨Log.Setting.command.rawType, [Log.Command.bind.number]⟩]
  | log _ (.unbind _) => [⟨Log.Setting.command.rawType, [Log.Command.unbind.number]⟩]
  | log _ (.set _ (.mode mode range)) =>
      [⟨Log.Setting.mode.rawType, Bytes.big 4 range.toNat ++ [mode.number, 0]⟩]
  | log _ (.set _ (.bufferSize n)) => [⟨Log.Setting.bufferSize.rawType, Bytes.big 4 n.toNat⟩]
  | log _ (.set _ (.timeout n)) => [⟨Log.Setting.timeout.rawType, Bytes.big 4 n.toNat⟩]
  | log _ (.set _ (.threshold n)) => [⟨Log.Setting.threshold.rawType, Bytes.big 4 n.toNat⟩]
  | log _ (.set _ (.flags n)) => [⟨Log.Setting.flags.rawType, Bytes.big 2 n.toNat⟩]

def opening (x : Errand) : Draft where
  type := x.type
  flags := 0
  body := FamilyHeader.encode { family := x.family, resource := x.resource }

theorem aligned_opening (x : Errand) : x.opening.Aligned := by
  simp [Draft.Aligned, opening, FamilyHeader.encode]

theorem length_value_le (x : Errand) : ∀ a ∈ x.attributes, a.value.length ≤ 6 := by
  rcases x with ⟨settings, r⟩ | ⟨family, r⟩
  · cases r <;> simp [attributes, Queue.Request.command]
  · cases r with
    | set group tunable => cases tunable <;> simp [attributes]
    | unbindFamily | bindFamily | bind group | unbind group => simp [attributes]

theorem length_attributes_le (x : Errand) : x.attributes.length ≤ 2 := by
  rcases x with ⟨settings, r⟩ | ⟨family, r⟩
  · cases r <;> simp [attributes]
  · cases r with
    | set group tunable => cases tunable <;> simp [attributes]
    | unbindFamily | bindFamily | bind group | unbind group => simp [attributes]

theorem fits_of_mem {x : Errand} {a : Attribute} (ha : a ∈ x.attributes) : a.Fits :=
  (x.length_value_le a ha).trans (by decide)

theorem short_eq {d : Draft} (h : d.Aligned) (rawType : UInt16) {value : Bytes}
    (hsmall : value.length ≤ 6) :
    d.short rawType value = d.extend (Attribute.encode ⟨rawType, value⟩) :=
  Draft.short_of_fits h ⟨rawType, value⟩ (hsmall.trans (by decide))

theorem draft_eq (x : Errand) :
    x.draft = x.opening.extend (x.attributes.flatMap Attribute.encode) := by
  have hone (rawType : UInt16) {value : Bytes} (hsmall : value.length ≤ 6) :
      x.opening.short rawType value =
        x.opening.extend ([⟨rawType, value⟩].flatMap Attribute.encode) := by
    rw [short_eq x.aligned_opening rawType hsmall, List.flatMap_singleton]
  have hword (n : UInt32) : (Bytes.big 4 n.toNat).length ≤ 6 := by simp
  rcases x with ⟨settings, r⟩ | ⟨family, r⟩
  · cases r with
    | setFlags mask flags =>
        have hmask := short_eq (aligned_opening (queue settings (.setFlags mask flags)))
          Queue.Setting.mask.rawType (hword mask)
        have haligned := (aligned_opening (queue settings (.setFlags mask flags))).extend
          (Attribute.encode_mod ⟨Queue.Setting.mask.rawType, Bytes.big 4 mask.toNat⟩)
        have hflags := short_eq haligned Queue.Setting.flags.rawType (hword flags)
        rw [Draft.extend_extend, ← hmask] at hflags
        refine hflags.trans ?_
        simp [attributes]
    | setMode mode range => exact hone _ (by simp)
    | setMaxLength length => exact hone _ (hword length)
    | unbindFamily | bindFamily | bind number | unbind =>
        exact hone _ (by simp [Queue.Request.command])
  · cases r with
    | set group tunable =>
        cases tunable with
        | mode mode range => exact hone _ (by simp)
        | flags n => exact hone _ (by simp)
        | bufferSize n | timeout n | threshold n => exact hone _ (hword n)
    | unbindFamily | bindFamily | bind group | unbind group => exact hone _ (by simp)

theorem reads_attributes (x : Errand) : x.Reads x.attributes := by
  have hcommand (c : Queue.Command) (family : UInt16) :
      IsQueueCommand c family (Queue.Request.command c family) :=
    ⟨rfl, rfl, Value.word16_big family⟩
  have hword32 (n : UInt32) : IsWord32 n (Bytes.big 4 n.toNat) :=
    ⟨Bytes.length_big 4 _, Value.word32_big n⟩
  have hword16 (n : UInt16) : IsWord16 n (Bytes.big 2 n.toNat) :=
    ⟨Bytes.length_big 2 _, Value.word16_big n⟩
  have hmode (mode : CopyMode) (range : UInt32) (unused : Bytes) :
      IsMode (5 + unused.length) mode range
        (Bytes.big 4 range.toNat ++ mode.number :: unused) := by
    refine ⟨?_, Value.word32_big_append range _, ?_⟩
    · rw [List.length_append, Bytes.length_big, List.length_cons]
      omega
    · rw [List.drop_left' (Bytes.length_big 4 _)]
      rfl
  rcases x with ⟨settings, r⟩ | ⟨family, r⟩
  · cases r with
    | setMode mode range => exact ⟨_, rfl, hmode mode range []⟩
    | setMaxLength length => exact ⟨_, rfl, hword32 length⟩
    | setFlags mask flags => exact ⟨_, _, rfl, hword32 mask, hword32 flags⟩
    | unbindFamily | bindFamily | bind number | unbind => exact ⟨_, rfl, hcommand _ _⟩
  · cases r with
    | set group tunable =>
        cases tunable with
        | mode mode range => exact ⟨_, rfl, hmode mode range [0]⟩
        | flags n => exact ⟨_, rfl, hword16 n⟩
        | bufferSize n | timeout n | threshold n => exact ⟨_, rfl, hword32 n⟩
    | unbindFamily | bindFamily | bind group | unbind group => exact ⟨_, rfl, rfl, rfl⟩

/-- No request has much to say. -/
theorem length_flatMap_encode_le (x : Errand) :
    (x.attributes.flatMap Attribute.encode).length ≤ 24 := by
  have hsum (items : List Attribute) (hsmall : ∀ a ∈ items, a.value.length ≤ 6) :
      (items.flatMap Attribute.encode).length ≤ 12 * items.length := by
    induction items with
    | nil => exact Nat.le_refl 0
    | cons a items ih =>
        obtain ⟨ha, hlater⟩ := List.forall_mem_cons.1 hsmall
        have hsize : Attribute.paddedSize a.value.length ≤ 12 := by
          unfold Attribute.paddedSize Attribute.headerSize Bytes.alignUp
          omega
        have hrest := ih hlater
        rw [List.flatMap_cons, List.length_append, Attribute.length_encode, List.length_cons]
        omega
  have hfew := x.length_attributes_le
  have hall := hsum x.attributes x.length_value_le
  omega

theorem says_datagram (x : Errand) (port seq : UInt32) : x.Says port seq (x.datagram port seq) := by
  let d : Draft := { Channel.asking x.draft with seq, port }
  have hbody : d.body = FamilyHeader.encode { family := x.family, resource := x.resource } ++
      x.attributes.flatMap Attribute.encode := congrArg Draft.body x.draft_eq
  have haligned : d.Aligned := by
    have h : x.draft.Aligned := by
      rw [draft_eq]
      exact x.aligned_opening.extend (Attribute.flatMap_encode_mod x.attributes)
    exact h
  have hsize : d.size < 2 ^ 32 := by
    have hshort := x.length_flatMap_encode_le
    rw [Draft.size, hbody, List.length_append]
    change 16 + (4 + _) < _
    omega
  have htype : d.type = x.type := congrArg Draft.type x.draft_eq
  have hflags : d.flags = Message.request ||| Message.wantsAck := by
    change x.draft.flags ||| (Message.request ||| Message.wantsAck) = _
    rw [draft_eq]
    exact UInt16.zero_or
  refine ⟨d.header, d.body, _, x.attributes, Draft.walk_finish haligned hsize,
    Draft.toNat_length_header hsize, htype, hflags, rfl, rfl, ?_,
    Attribute.walk_flatMap_encode _ fun a ha => fits_of_mem ha, x.reads_attributes⟩
  rw [hbody]
  exact FamilyHeader.read_encode_append ⟨x.family, 0, x.resource⟩ _

end Errand

end Netfilter
