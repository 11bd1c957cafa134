import Mathlib.Data.List.Nodup
import Netfilter.Proofs.Link.Query

/-!
# Calls that stall

A socket may take no data for a while. A call that would send then holds on to
the socket with its message, which bears its number already, and sends it when it
is gone on with later, even if the channel was closed in the meantime. Such a call
is kept at the stage at which it holds the socket without having sent anything.

`Goes` says all that going on with a call can do: without a socket at hand the
call is refused or stands in line, and the socket is left alone.
-/

namespace Netfilter

def Running.isSender (r : Running) : Bool :=
  match r.call, r.stage with
  | .receive, _ => false
  | _, .awaiting _ => false
  | _, _ => true

/-- The call holds on to the socket with a message that was not taken. -/
def Running.isStalled (r : Running) : Bool := r.isSender && r.stage = .receiving

theorem Socket.drops_send (s : Socket) (data : Bytes) : (s.send data).2.drops = s.drops := by
  rcases s.send_cases data with ⟨e, faults, hs⟩ | ⟨faults, codes, hs⟩
  · rw [hs]
  · rw [hs]
    rfl

namespace Channel

abbrev Course := Except Error Answer ⊕ Running

def course (r : Running) (p : Progress × Channel) : Course × Channel :=
  (p.1.map id fun stage => { r with stage }, p.2)

def hold (c : Channel) (r : Running) : Course :=
  if c.isOpen then .inr { r with stage := .receiving } else .inl (.error .notOpen)

def stall (c : Channel) (r : Running) : Course × Channel :=
  match r.call with
  | .send _ | .receive => (c.hold r, c)
  | .post d =>
      let (seq, c) := c.takeSeq
      (c.hold { r with call := .post { d with seq, port := c.port } }, c)
  | .query d =>
      let c := { c with turn := c.turn.request r.name }
      if c.turn.isOf r.name then
        if c.isOpen then
          let (seq, c) := c.takeSeq
          (c.hold { r with call := .query { asking d with seq, port := c.port } }, c)
        else (.inl (.error .notOpen), c)
      else (.inr { r with stage := .inLine }, c)

def deliver (c : Channel) : Call → Progress × Channel
  | .send data =>
      let (result, socket) := c.socket.send data
      (.inl ((result.mapError Error.io).map fun _ => .done), { c with socket })
  | .post d =>
      let (result, socket) := c.socket.send d.finish
      (.inl ((result.mapError Error.io).map fun _ => .numbered d.seq), { c with socket })
  | .query d =>
      match c.socket.send d.finish with
      | (.error e, socket) => (.inl (.error (.io e)), { c with socket })
      | (.ok (), socket) => { c with socket }.goOnAwaiting d.seq
  | .receive => c.goOnReceiving

/-- Goes on with a call as far as it gets; the socket may be too `busy` to take data. -/
def goOnWhile (busy : Bool) (c : Channel) (r : Running) : Course × Channel :=
  if r.isStalled then
    if busy then (.inr r, c) else course r (c.deliver r.call)
  else if busy && r.isSender then c.stall r
  else course r (c.goOn r)

def pollWhile (busy : Bool) (c : Channel) (name : Nat) : Option (Outcome Answer) × Channel :=
  match c.calls.find? (·.name = name) with
  | none => (none, c)
  | some r =>
      match c.goOnWhile busy r with
      | (.inl result, after) => (some (.ofExcept result), endCall c after name)
      | (.inr r, after) =>
          (some .pending, { after with
            calls := after.calls.map fun q => if q.name = name then r else q })

/-- What becomes of a call that is gone on with, and of its channel. A socket is at hand while the
channel is open, and for a call that holds it. -/
inductive Goes (c : Channel) (r : Running) : Course × Channel → Prop
  | refused (shut : c.isOpen = false) (free : r.holdsSocket = false) {turn : Turn}
      (turned : turn = c.turn ∨ turn = c.turn.request r.name) (nextSeq : UInt32) :
      Goes c r (.inl (.error .notOpen), { c with turn, nextSeq })
  | lined (query : ∃ d, r.call = .query d) (free : r.holdsSocket = false) {j : Nat}
      (behind : c.turn.holder = some j) (other : j ≠ r.name) :
      Goes c r (.inr { r with stage := .inLine }, { c with turn := c.turn.request r.name })
  | ended (atHand : c.isOpen = true ∨ r.holdsSocket = true) (result : Except Error Answer)
      {turn : Turn} (turned : turn = c.turn ∨ turn = c.turn.request r.name) (nextSeq : UInt32)
      {socket : Socket} (kept : socket.drops = c.socket.drops) :
      Goes c r (.inl result, { c with turn, nextSeq, socket })
  | holding (atHand : c.isOpen = true ∨ r.holdsSocket = true) (r' : Running)
      (name : r'.name = r.name) (holds : r'.holdsSocket = true)
      {turn : Turn} (turned : turn = c.turn ∨ turn = c.turn.request r.name) (nextSeq : UInt32)
      {socket : Socket} (kept : socket.drops = c.socket.drops) :
      Goes c r (.inr r', { c with turn, nextSeq, socket })

section Goes

variable {c : Channel} {r : Running}

theorem goes_shut (shut : c.isOpen = false) {turn : Turn}
    (turned : turn = c.turn ∨ turn = c.turn.request r.name) (nextSeq : UInt32) :
    Goes c r (.inl (.error .notOpen), { c with turn, nextSeq }) := by
  cases h : r.holdsSocket with
  | false => exact .refused shut h turned nextSeq
  | true => exact .ended (.inr h) _ turned nextSeq rfl

theorem goes_receiving (atHand : c.isOpen = true ∨ r.holdsSocket = true) :
    Goes c r (course r c.goOnReceiving) := by
  unfold goOnReceiving
  rcases c.socket.receive_cases with ⟨-, hs⟩ | ⟨taken, later, receipt, -, -, hs⟩
  · rw [hs]
    exact .holding atHand { r with stage := .receiving } rfl rfl (.inl rfl) c.nextSeq rfl
  · rw [hs]
    exact .ended atHand _ (.inl rfl) c.nextSeq rfl

theorem goes_awaiting (atHand : c.isOpen = true ∨ r.holdsSocket = true) {turn : Turn}
    (turned : turn = c.turn ∨ turn = c.turn.request r.name) (nextSeq : UInt32) {socket : Socket}
    (kept : socket.drops = c.socket.drops) (seq : UInt32) :
    Goes c r (course r ({ c with turn, nextSeq, socket }.goOnAwaiting seq)) := by
  obtain ⟨outcome, left, hd⟩ := Acknowledgement.exists_decision socket seq socket.inbox
  have hawait := await_of_decision (c := { c with turn, nextSeq, socket }) hd
  unfold goOnAwaiting
  rw [hawait]
  cases outcome with
  | ok u => exact .ended atHand _ turned nextSeq kept
  | error e => exact .ended atHand _ turned nextSeq kept
  | pending =>
      exact .holding atHand { r with stage := .awaiting seq } rfl rfl turned nextSeq kept

theorem goes_hold (r' : Running) (name : r'.name = r.name) {turn : Turn}
    (turned : turn = c.turn ∨ turn = c.turn.request r.name) (nextSeq : UInt32) :
    Goes c r (hold { c with turn, nextSeq } r', { c with turn, nextSeq }) := by
  unfold hold
  by_cases hopen : c.isOpen = true
  · rw [if_pos hopen]
    exact .holding (.inl hopen) { r' with stage := .receiving } name rfl turned nextSeq rfl
  · rw [if_neg hopen]
    exact goes_shut (by simpa using hopen) turned nextSeq

/-- A query that is not let have the turn stands behind its holder. -/
theorem goes_lined {d : Draft} (hcall : r.call = .query d) (free : r.holdsSocket = false)
    (hturn : (c.turn.request r.name).isOf r.name = false) :
    Goes c r (.inr { r with stage := .inLine }, { c with turn := c.turn.request r.name }) := by
  unfold Turn.isOf Turn.request at hturn
  cases hholder : c.turn.holder with
  | none => simp [hholder] at hturn
  | some j =>
      refine .lined ⟨d, hcall⟩ free hholder ?_
      rintro rfl
      simp [hholder] at hturn

theorem goes_stall (hsender : r.isSender = true) (hstalled : r.isStalled = false) :
    Goes c r (c.stall r) := by
  obtain ⟨name, call, stage⟩ := r
  cases call with
  | send data => exact goes_hold _ rfl (.inl rfl) c.nextSeq
  | post d =>
      exact goes_hold (c := c) (r := ⟨name, .post d, stage⟩)
        ⟨name, .post { d with seq := c.nextSeq, port := c.port }, stage⟩ rfl (.inl rfl)
        (c.nextSeq + 1)
  | query d =>
      have hfree : Running.holdsSocket ⟨name, .query d, stage⟩ = false := by
        cases stage with
        | fresh => rfl
        | inLine => rfl
        | awaiting seq => cases hsender
        | receiving => cases hstalled
      unfold stall
      dsimp only
      split_ifs with hturn hopen
      · exact goes_hold (c := c) (r := ⟨name, .query d, stage⟩)
          ⟨name, .query { asking d with seq := c.nextSeq, port := c.port }, stage⟩ rfl (.inr rfl)
          (c.nextSeq + 1)
      · exact goes_shut (by simpa using hopen) (.inr rfl) c.nextSeq
      · exact goes_lined (r := ⟨name, .query d, stage⟩) rfl hfree (by simpa using hturn)
  | receive => exact goes_hold _ rfl (.inl rfl) c.nextSeq

theorem goes_deliver (atHand : c.isOpen = true ∨ r.holdsSocket = true) (call : Call) :
    Goes c r (course r (c.deliver call)) := by
  cases call with
  | send data => exact .ended atHand _ (.inl rfl) c.nextSeq (c.socket.drops_send data)
  | post d => exact .ended atHand _ (.inl rfl) c.nextSeq (c.socket.drops_send d.finish)
  | query d =>
      have hdrops := c.socket.drops_send d.finish
      rw [deliver]
      generalize c.socket.send d.finish = sending at hdrops ⊢
      obtain ⟨result, socket⟩ := sending
      cases result with
      | error e => exact .ended atHand _ (.inl rfl) c.nextSeq hdrops
      | ok _ => exact goes_awaiting atHand (.inl rfl) c.nextSeq hdrops d.seq
  | receive => exact goes_receiving atHand

theorem goes_send (data : Bytes) (f : Unit → Answer) (nextSeq : UInt32) :
    Goes c r (course r (.inl ((send { c with nextSeq } data).1.map f),
      (send { c with nextSeq } data).2)) := by
  by_cases hopen : c.isOpen = true
  · have hsend : send { c with nextSeq } data = ((c.socket.send data).1.mapError .io,
        { c with nextSeq, socket := (c.socket.send data).2 }) := if_pos hopen
    rw [hsend]
    exact .ended (.inl hopen) _ (.inl rfl) nextSeq (c.socket.drops_send data)
  · have hsend : send { c with nextSeq } data = (.error .notOpen, { c with nextSeq }) :=
      if_neg hopen
    rw [hsend]
    exact goes_shut (by simpa using hopen) (.inl rfl) nextSeq

/-- A query that has not sent its request. -/
theorem goes_query {d : Draft} (hcall : r.call = .query d) (hfree : r.holdsSocket = false) :
    Goes c r (course r (c.goOn r)) := by
  have hwaits (seq : UInt32) : r.stage ≠ .awaiting seq := by
    intro hstage
    simp [Running.holdsSocket, hstage] at hfree
  rw [goOn_of_waits hcall hwaits]
  dsimp only
  split_ifs with hturn
  · by_cases hopen : c.isOpen = true
    · rcases request_cases { c with turn := c.turn.request r.name } d with
        ⟨e, faults, next, hr, -⟩ | ⟨faults, codes, hr⟩
      · rw [hr]
        exact .ended (.inl hopen) _ (.inr rfl) next rfl
      · rw [hr]
        have kept : (c.socket.recorded (stamped { c with turn := c.turn.request r.name } (asking d))
            faults codes).drops = c.socket.drops := rfl
        exact goes_awaiting (c := c) (r := r) (.inl hopen) (.inr rfl) (c.nextSeq + 1) kept c.nextSeq
    · have hr : request { c with turn := c.turn.request r.name } d =
          (.error .notOpen, { c with turn := c.turn.request r.name }) := if_neg hopen
      rw [hr]
      exact goes_shut (by simpa using hopen) (.inr rfl) c.nextSeq
  · exact goes_lined hcall hfree (by simpa using hturn)

theorem goes_goOn (hstalled : r.isStalled = false) : Goes c r (course r (c.goOn r)) := by
  obtain ⟨name, call, stage⟩ := r
  cases call with
  | send data => exact goes_send data (fun _ => .done) c.nextSeq
  | post d =>
      have hpost : (c.post d).1.map Answer.numbered = (send { c with nextSeq := c.nextSeq + 1 }
          (c.stamped d)).1.map fun _ => .numbered c.nextSeq := by
        change ((send _ (c.stamped d)).1.map fun _ => c.nextSeq).map Answer.numbered = _
        cases (send _ (c.stamped d)).1 <;> rfl
      change Goes c _ (course _ (.inl ((c.post d).1.map Answer.numbered), (c.post d).2))
      rw [hpost]
      exact goes_send (c.stamped d) _ (c.nextSeq + 1)
  | query d =>
      cases stage with
      | fresh => exact goes_query rfl rfl
      | inLine => exact goes_query rfl rfl
      | awaiting seq => exact goes_awaiting (.inr rfl) (.inl rfl) c.nextSeq rfl seq
      | receiving => cases hstalled
  | receive =>
      by_cases hreceiving : stage = .receiving
      · subst hreceiving
        exact goes_receiving (.inr rfl)
      · have hgo : c.goOn ⟨name, .receive, stage⟩ =
            if c.isOpen then c.goOnReceiving else (.inl (.error .notOpen), c) := by
          cases stage with
          | receiving => exact absurd rfl hreceiving
          | _ => rfl
        rw [hgo]
        split_ifs with hopen
        · exact goes_receiving (.inl hopen)
        · exact goes_shut (by simpa using hopen) (.inl rfl) c.nextSeq

theorem goOnWhile_goes (busy : Bool) (c : Channel) (r : Running) :
    Goes c r (c.goOnWhile busy r) := by
  unfold goOnWhile
  cases hstalled : r.isStalled with
  | true =>
      have hstage : r.stage = .receiving := by
        simp only [Running.isStalled, Bool.and_eq_true, decide_eq_true_eq] at hstalled
        exact hstalled.2
      have hholds : r.holdsSocket = true := by rw [Running.holdsSocket, hstage]
      cases busy with
      | true => exact .holding (.inr hholds) r rfl hholds (.inl rfl) c.nextSeq rfl
      | false => exact goes_deliver (.inr hholds) r.call
  | false =>
      cases hsends : busy && r.isSender with
      | true => exact goes_stall (Bool.and_eq_true_iff.1 hsends).2 hstalled
      | false => exact goes_goOn hstalled

end Goes

theorem Goes.calls {c : Channel} {r : Running} {p : Course × Channel} (h : Goes c r p) :
    p.2.calls = c.calls := by
  cases h <;> rfl

/-- With a socket that takes data and without stalled calls, nothing is new. -/
theorem pollWhile_eq_poll {c : Channel} (hnames : (c.calls.map (·.name)).Nodup)
    (hidle : ∀ r ∈ c.calls, r.isStalled = false) (name : Nat) :
    c.pollWhile false name = c.poll name := by
  unfold pollWhile poll
  cases hfind : c.calls.find? (·.name = name) with
  | none => rfl
  | some r =>
      have hmem : r ∈ c.calls := List.mem_of_find?_eq_some hfind
      obtain rfl : r.name = name := by simpa using List.find?_some hfind
      have hcalls := (goOnWhile_goes false c r).calls
      have hgo : c.goOnWhile false r = course r (c.goOn r) := by
        simp [goOnWhile, hidle r hmem]
      rw [hgo] at hcalls
      simp only [hgo]
      generalize c.goOn r = gone at hcalls
      obtain ⟨result | stage, after⟩ := gone
      · rfl
      · have hsame : after.calls.map (fun q => if q.name = r.name then { r with stage } else q) =
            after.calls.map fun q => if q.name = r.name then { q with stage } else q := by
          refine List.map_congr_left fun q hq => ?_
          split_ifs with hname
          · rw [List.inj_on_of_nodup_map hnames (hcalls ▸ hq) hmem hname]
          · rfl
        exact congrArg (fun calls => (some Outcome.pending, { after with calls })) hsame

end Channel

end Netfilter
