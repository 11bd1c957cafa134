import Netfilter.Proofs.Queue.Setup
import Netfilter.Proofs.Requests.Errand

/-!
# Letters

Everything that is done through a handle comes down to a few acts on its
channels: a request is made, a channel is opened over a socket, the channel in
use is closed. Others take numbers of a channel too, for verdicts. What a channel
has sent are letters, one for each request made while the channel was in use,
except for those that the socket did not take; each bears the number that its
request took.
-/

namespace Netfilter

structure Letter where
  errand : Errand
  number : Nat

namespace Letter

def seq (l : Letter) : UInt32 := UInt32.ofNat l.number

def datagram (l : Letter) (port : UInt32) : Bytes := l.errand.datagram port l.seq

/-- The letters of those who took the numbers of a channel, from one on; `none` took a number for
something else. -/
def all (takers : List (Option Errand)) : List Letter :=
  (takers.zipIdx 1).filterMap fun (taker, number) => taker.map (⟨·, number⟩)

theorem all_append (takers later : List (Option Errand)) :
    all (takers ++ later) = all takers ++
      (later.zipIdx (1 + takers.length)).filterMap fun (taker, number) =>
        taker.map (⟨·, number⟩) := by
  rw [all, List.zipIdx_append, List.filterMap_append, all]

theorem all_append_some (takers : List (Option Errand)) (x : Errand) :
    all (takers ++ [some x]) = all takers ++ [⟨x, 1 + takers.length⟩] := all_append takers [some x]

theorem all_append_none (takers : List (Option Errand)) (count : Nat) :
    all (takers ++ List.replicate count none) = all takers := by
  rw [all_append, List.append_right_eq_self, List.filterMap_eq_nil_iff]
  rintro ⟨taker, number⟩ hmem
  obtain rfl := List.eq_of_mem_replicate (List.fst_mem_of_mem_zipIdx hmem)
  rfl

theorem number_le {takers : List (Option Errand)} {l : Letter} (h : l ∈ all takers) :
    l.number ≤ takers.length := by
  obtain ⟨⟨taker, number⟩, hmem, hl⟩ := List.mem_filterMap.1 h
  obtain ⟨x, -, rfl⟩ := Option.map_eq_some_iff.1 hl
  have hlt := List.snd_lt_add_of_mem_zipIdx hmem
  dsimp only at hlt ⊢
  omega

theorem pairwise_number (takers : List (Option Errand)) :
    (all takers).Pairwise fun a b => a.number < b.number := by
  have hnumbers (start : Nat) : (takers.zipIdx start).Pairwise fun a b => a.2 < b.2 := by
    induction takers generalizing start with
    | nil => exact .nil
    | cons taker takers ih =>
        rw [List.zipIdx_cons, List.pairwise_cons]
        exact ⟨fun b hb => List.le_snd_of_mem_zipIdx hb, ih (start + 1)⟩
  refine List.pairwise_filterMap.2 ((hnumbers 1).imp ?_)
  intro a b hlt l hl l' hl'
  obtain ⟨x, -, rfl⟩ := Option.map_eq_some_iff.1 hl
  obtain ⟨x', -, rfl⟩ := Option.map_eq_some_iff.1 hl'
  exact hlt

/-- As long as the numbers do not start over, they increase from letter to letter. -/
theorem pairwise_seq {takers : List (Option Errand)} (h : takers.length < 2 ^ 32) :
    (all takers).Pairwise fun a b => a.seq < b.seq := by
  have hseq {l : Letter} (hl : l ∈ all takers) : l.seq.toNat = l.number := by
    have hle := number_le hl
    rw [seq, UInt32.toNat_ofNat', Nat.mod_eq_of_lt (by omega)]
  refine (pairwise_number takers).imp_of_mem fun ha hb hlt => ?_
  rwa [UInt32.lt_iff_toNat_lt, hseq ha, hseq hb]

end Letter

namespace Channel

/-- The channel a while later: it may have been closed, everything may have changed in which its
owner has no hand, and others have taken so many numbers. -/
def meanwhile (c world : Channel) (taken : Nat) : Channel :=
  { c.amid world with
    isOpen := c.isOpen && world.isOpen
    nextSeq := c.nextSeq + UInt32.ofNat taken }

/-- The channel was opened over the socket `before`, its numbers were taken by these, and it has
sent nothing but letters. -/
structure Speaks (before : Socket) (takers : List (Option Errand)) (c : Channel) : Prop where
  holder : c.turn.holder = none
  port : c.socket.port = before.port
  nextSeq : c.nextSeq = UInt32.ofNat (1 + takers.length)
  sent : ∃ letters : List Letter, letters.Sublist (Letter.all takers) ∧
    c.socket.sent = before.sent ++ letters.map (·.datagram before.port)

variable {before : Socket} {takers : List (Option Errand)} {c : Channel}

theorem Speaks.close (h : c.Speaks before takers) : c.close.2.Speaks before takers := by
  obtain ⟨drops, hclose⟩ := c.close_eq
  rw [hclose]
  exact ⟨h.holder, h.port, h.nextSeq, h.sent⟩

theorem speaks_tune (settings : SocketSettings) (socket : Socket) :
    (Links.tune settings.options { socket }).Speaks socket [] := by
  have htune (options : List (Int × Int × Int)) {c : Channel} (h : c.Speaks socket []) :
      (Links.tune options c).Speaks socket [] := by
    induction options generalizing c with
    | nil => exact h
    | cons option options ih =>
        obtain ⟨result, faults, set, hset⟩ := c.setOption_cases option.1 option.2.1 option.2.2
        refine ih (c := (c.setOption option.1 option.2.1 option.2.2).2) ?_
        rw [hset]
        exact ⟨h.holder, h.port, h.nextSeq, h.sent⟩
  exact htune settings.options ⟨rfl, rfl, rfl, [], .slnil, (List.append_nil _).symm⟩

theorem Speaks.meanwhile (h : c.Speaks before takers) (world : Channel) (taken : Nat) :
    (c.meanwhile world taken).Speaks before (takers ++ List.replicate taken none) where
  holder := h.holder
  port := h.port
  nextSeq := by
    rw [List.length_append, List.length_replicate, ← Nat.add_assoc, UInt32.ofNat_add, ← h.nextSeq]
    rfl
  sent := by
    rw [Letter.all_append_none]
    exact h.sent

/-- A request takes a number. If it is acknowledged, the socket has taken its letter. -/
theorem Speaks.query (h : c.Speaks before takers) (hopen : c.isOpen = true) (x : Errand) :
    (c.query x.draft).2.Speaks before (takers ++ [some x]) ∧
      ((c.query x.draft).1 = .ok () → (c.query x.draft).2.socket.sent =
        c.socket.sent ++ [Letter.datagram ⟨x, 1 + takers.length⟩ before.port]) := by
  obtain ⟨letters, hsub, hsent⟩ := h.sent
  have hnext : c.nextSeq + 1 = UInt32.ofNat (1 + (takers ++ [some x]).length) := by
    rw [List.length_append, List.length_singleton, ← Nat.add_assoc, UInt32.ofNat_add, ← h.nextSeq]
    rfl
  have hrequest : c.request x.draft = c.post (asking x.draft) := if_pos hopen
  rw [Channel.query, h.holder, hrequest]
  rcases c.post_cases (asking x.draft) with ⟨e, faults, -, hp⟩ | ⟨faults, codes, -, hp⟩
  · simp only [Option.isSome_none, Bool.false_eq_true, if_false, hp]
    refine ⟨⟨h.holder, h.port, hnext, letters, ?_, hsent⟩, fun hok => by cases hok⟩
    rw [Letter.all_append_some]
    exact hsub.trans (List.sublist_append_left _ _)
  · simp only [Option.isSome_none, Bool.false_eq_true, if_false, hp]
    have hstamped : c.stamped (asking x.draft) =
        Letter.datagram ⟨x, 1 + takers.length⟩ before.port := by
      rw [stamped, Channel.port, h.port, h.nextSeq]
      rfl
    refine ⟨⟨h.holder, h.port, hnext, letters ++ [⟨x, 1 + takers.length⟩], ?_, ?_⟩, fun _ => ?_⟩
    · rw [Letter.all_append_some]
      exact hsub.append (List.Sublist.refl _)
    · rw [List.map_append, ← List.append_assoc, ← hsent, List.map_singleton, ← hstamped]
      rfl
    · rw [← hstamped]
      rfl

end Channel

namespace Links

inductive Act
  | ask (x : Errand)
  | openWith (settings : SocketSettings) (socket : Socket)
  | close
  | meanwhile (world : Channel) (taken : Nat)

def Act.socket? : Act → Option Socket
  | openWith _ socket => some socket
  | _ => none

def Act.takers : Act → List (Option Errand)
  | ask x => [some x]
  | meanwhile _ taken => List.replicate taken none
  | _ => []

def meanwhile (l : Links) (world : Channel) (taken : Nat) : Links :=
  match l.openNumber? with
  | none => l
  | some i => l.modify i (·.meanwhile world taken)

def after (l : Links) : Act → Links
  | .ask x => (l.query x.draft).2
  | .openWith settings socket => l.openWith settings socket
  | .close => l.close
  | .meanwhile world taken => l.meanwhile world taken

def run (l : Links) (acts : List Act) : Links := acts.foldl after l

theorem run_append (l : Links) (acts later : List Act) :
    l.run (acts ++ later) = (l.run acts).run later := List.foldl_append

section

variable {State Directive : Type} (links : State → Links) (step : State → Directive → State)
  (acts : State → Directive → List Act)

/-- The acts that directives come down to, each of them where the ones before have led. -/
def actsOf : State → List Directive → List Act
  | _, [] => []
  | s, d :: directives => acts s d ++ actsOf (step s d) directives

theorem links_foldl (h : ∀ s d, links (step s d) = (links s).run (acts s d)) (s : State)
    (directives : List Directive) :
    links (directives.foldl step s) = (links s).run (actsOf step acts s directives) := by
  induction directives generalizing s with
  | nil => rfl
  | cons d directives ih => rw [List.foldl_cons, ih, h, actsOf, run_append]

end

def takers (i : Nat) : Links → List Act → List (Option Errand)
  | _, [] => []
  | l, a :: acts => (if l.openNumber? = some i then a.takers else []) ++ takers i (l.after a) acts

structure Speak (sockets : List Socket) (takers : Nat → List (Option Errand)) (l : Links) :
    Prop where
  length : l.channels.length = sockets.length
  untouched : ∀ i, sockets.length ≤ i → takers i = []
  speaks : ∀ (i : Nat) (socket : Socket), sockets[i]? = some socket →
    ∃ c, l.channels[i]? = some c ∧ c.Speaks socket (takers i)

variable {sockets : List Socket} {takers : Nat → List (Option Errand)} {l : Links}

theorem exists_of_openNumber? {i : Nat} (h : l.openNumber? = some i) :
    ∃ c, l.Uses i c ∧ c.isOpen = true := by
  obtain ⟨hcurrent, hopen⟩ := Option.filter_eq_some_iff.1 h
  obtain ⟨c, hc, hopen⟩ := (Option.any_eq_true _ _).1 hopen
  exact ⟨c, ⟨hcurrent, hc⟩, hopen⟩

theorem channels_modify_eq_set {i : Nat} {c : Channel} (h : l.channels[i]? = some c)
    (f : Channel → Channel) : (l.modify i f).channels = l.channels.set i (f c) := by
  rw [modify, List.modify_eq_set_getElem?, h]
  rfl

/-- The channel `i` in use becomes another one, and more of its numbers are taken. -/
theorem Speak.replaced (h : l.Speak sockets takers) {i : Nat} {c c' : Channel} {l' : Links}
    {more : List (Option Errand)} (hc : l.channels[i]? = some c)
    (hchannels : l'.channels = l.channels.set i c')
    (hspeaks : ∀ before now, c.Speaks before now → c'.Speaks before (now ++ more)) :
    l'.Speak sockets fun j => takers j ++ if some i = some j then more else [] where
  length := by rw [hchannels, List.length_set, h.length]
  untouched j hj := by
    have hi : i < sockets.length := by
      rw [← h.length]
      exact (List.getElem?_eq_some_iff.1 hc).1
    rw [h.untouched j hj, if_neg (by simp; omega), List.append_nil]
  speaks j socket hsocket := by
    obtain ⟨cj, hcj, hspeaksj⟩ := h.speaks j socket hsocket
    rw [hchannels, List.getElem?_set]
    by_cases hij : i = j
    · subst hij
      obtain rfl : c = cj := Option.some.inj (hc.symm.trans hcj)
      have hi := (List.getElem?_eq_some_iff.1 hc).1
      exact ⟨c', by simp [hi], by simpa using hspeaks socket (takers i) hspeaksj⟩
    · exact ⟨cj, by simp [hij, hcj], by simpa [hij] using hspeaksj⟩

/-- Nobody takes a number. -/
theorem Speak.of_takers_eq (h : l.Speak sockets takers) {now : Nat → List (Option Errand)}
    (hnow : ∀ i, now i = takers i) : l.Speak sockets now := by
  obtain rfl : now = takers := funext hnow
  exact h

theorem Speak.close (h : l.Speak sockets takers) : l.close.Speak sockets takers := by
  cases hcurrent : l.current with
  | none =>
      rw [Links.close, hcurrent]
      exact h
  | some i =>
      have hclose : l.close = { l.modify i (fun c => c.close.2) with current := none } := by
        rw [Links.close, hcurrent]
      cases hc : l.channels[i]? with
      | none =>
          have hsame : l.close.channels = l.channels := by
            rw [hclose]
            exact List.modify_eq_self (List.getElem?_eq_none_iff.1 hc)
          exact ⟨by rw [hsame, h.length], h.untouched, by rw [hsame]; exact h.speaks⟩
      | some c =>
          have hset : l.close.channels = l.channels.set i c.close.2 := by
            rw [hclose]
            exact channels_modify_eq_set hc _
          have hsame (before : Socket) (now : List (Option Errand))
              (hspeaks : c.Speaks before now) : c.close.2.Speaks before (now ++ []) := by
            rw [List.append_nil]
            exact hspeaks.close
          exact (h.replaced hc hset hsame).of_takers_eq fun j => by simp

theorem Speak.openWith (h : l.Speak sockets takers) (settings : SocketSettings) (socket : Socket) :
    (l.openWith settings socket).Speak (sockets ++ [socket]) takers := by
  have hclosed := h.close
  refine ⟨?_, ?_, ?_⟩
  · rw [List.length_append, ← hclosed.length]
    exact List.length_append
  · intro i hi
    rw [List.length_append] at hi
    exact h.untouched i (by omega)
  · intro i before hsocket
    change ∃ c, (l.close.channels ++ [tune settings.options { socket }])[i]? = some c ∧ _
    rcases Nat.lt_trichotomy i sockets.length with hi | rfl | hi
    · rw [List.getElem?_append_left hi] at hsocket
      rw [List.getElem?_append_left (by rw [hclosed.length]; exact hi)]
      exact hclosed.speaks i before hsocket
    · obtain rfl : socket = before := by simpa using hsocket
      rw [h.untouched _ (Nat.le_refl _), ← hclosed.length]
      exact ⟨_, by simp, Channel.speaks_tune settings socket⟩
    · rw [List.getElem?_eq_none (by simp; omega)] at hsocket
      cases hsocket

theorem Speak.after (h : l.Speak sockets takers) (a : Act) :
    (l.after a).Speak (sockets ++ a.socket?.toList)
      fun i => takers i ++ if l.openNumber? = some i then a.takers else [] := by
  -- numbers are taken of the channel in use alone
  cases a with
  | ask x =>
      simp only [Act.socket?, Option.toList_none, List.append_nil, Links.after, Act.takers]
      cases hnumber : l.openNumber? with
      | none =>
          rw [Links.query, hnumber]
          exact h.of_takers_eq fun i => by simp
      | some i =>
          obtain ⟨c, huses, hopen⟩ := exists_of_openNumber? hnumber
          rw [huses.query hopen]
          exact h.replaced huses.channel rfl fun before now hspeaks => (hspeaks.query hopen x).1
  | openWith settings socket =>
      exact (h.openWith settings socket).of_takers_eq fun i => by simp [Act.takers]
  | close =>
      simp only [Act.socket?, Option.toList_none, List.append_nil]
      exact h.close.of_takers_eq fun i => by simp [Act.takers]
  | meanwhile world taken =>
      simp only [Act.socket?, Option.toList_none, List.append_nil, Links.after, Act.takers]
      cases hnumber : l.openNumber? with
      | none =>
          rw [Links.meanwhile, hnumber]
          exact h.of_takers_eq fun i => by simp
      | some i =>
          obtain ⟨c, huses, hopen⟩ := exists_of_openNumber? hnumber
          rw [Links.meanwhile, hnumber]
          exact h.replaced huses.channel (channels_modify_eq_set huses.channel _)
            fun before now hspeaks => hspeaks.meanwhile world taken

theorem Speak.run (h : l.Speak sockets takers) (acts : List Act) :
    (l.run acts).Speak (sockets ++ acts.filterMap Act.socket?)
      fun i => takers i ++ l.takers i acts := by
  induction acts generalizing l sockets takers with
  | nil => simpa [Links.run, Links.takers] using h
  | cons a acts ih =>
      have hlater := ih (h.after a)
      have hsockets : (a :: acts).filterMap Act.socket? =
          a.socket?.toList ++ acts.filterMap Act.socket? := by
        rw [List.filterMap_cons]
        cases a.socket? <;> rfl
      simp only [List.append_assoc, ← hsockets] at hlater
      exact hlater

/-- The socket in use has taken the letter of a request that is acknowledged. -/
theorem Speak.query_ok (h : l.Speak sockets takers) {x : Errand}
    (hok : (l.query x.draft).1 = .ok ()) :
    ∃ i socket c c', sockets[i]? = some socket ∧ l.channels[i]? = some c ∧
      (l.after (.ask x)).channels[i]? = some c' ∧ c'.socket.sent =
        c.socket.sent ++ [Letter.datagram ⟨x, 1 + (takers i).length⟩ socket.port] := by
  cases hnumber : l.openNumber? with
  | none =>
      rw [Links.query, hnumber] at hok
      cases hok
  | some i =>
      obtain ⟨c, huses, hopen⟩ := exists_of_openNumber? hnumber
      have hi : i < sockets.length := by
        rw [← h.length]
        exact (List.getElem?_eq_some_iff.1 huses.channel).1
      obtain ⟨c₀, hc₀, hspeaks⟩ := h.speaks i sockets[i] (List.getElem?_eq_getElem hi)
      obtain rfl : c = c₀ := Option.some.inj (huses.channel.symm.trans hc₀)
      have hquery := huses.query hopen x.draft
      rw [hquery] at hok
      refine ⟨i, sockets[i], c, _, List.getElem?_eq_getElem hi, huses.channel, ?_,
        (hspeaks.query hopen x).2 hok⟩
      rw [Links.after, hquery]
      exact channels_put huses.channel _

/-- The channels are what these acts have made of none. Each socket has taken letters to those who
asked while its channel was in use, and none of those that were acknowledged is missing. Letters say
what was asked, and their numbers increase unless these start over. -/
structure SayWhatIsAsked (acts : List Act) (l : Links) : Prop where
  acted : l = run {} acts
  letters : ∀ (i : Nat) (socket : Socket), (acts.filterMap Act.socket?)[i]? = some socket →
    ∃ (c : Channel) (letters : List Letter), l.channels[i]? = some c ∧
      c.socket.sent = socket.sent ++ letters.map (·.datagram socket.port) ∧
      letters.Sublist (Letter.all (Links.takers i {} acts))
  acknowledged : ∀ before x after, acts = before ++ .ask x :: after →
    ((run {} before).query x.draft).1 = .ok () →
    ∃ i socket c c', (before.filterMap Act.socket?)[i]? = some socket ∧
      (run {} before).channels[i]? = some c ∧
      (run {} (before ++ [.ask x])).channels[i]? = some c' ∧ c'.socket.sent = c.socket.sent ++
        [Letter.datagram ⟨x, 1 + (Links.takers i {} before).length⟩ socket.port]
  saying : ∀ (i : Nat) (port : UInt32), ∀ letter ∈ Letter.all (Links.takers i {} acts),
    letter.errand.Says port letter.seq (letter.datagram port)
  increasing : ∀ i, (Links.takers i {} acts).length < 2 ^ 32 →
    (Letter.all (Links.takers i {} acts)).Pairwise fun a b => a.seq < b.seq

theorem sayWhatIsAsked_run (acts : List Act) : SayWhatIsAsked acts (run {} acts) := by
  have hspeak (acts : List Act) : (run {} acts).Speak (acts.filterMap Act.socket?)
      fun i => Links.takers i {} acts := by
    have hnil : ({} : Links).Speak [] fun _ => [] :=
      ⟨rfl, fun _ _ => rfl, fun _ _ h => by cases h⟩
    exact hnil.run acts
  refine ⟨rfl, fun i socket hsocket => ?_, fun before x after _ hok => ?_,
    fun i port letter _ => letter.errand.says_datagram port letter.seq,
    fun i hlt => Letter.pairwise_seq hlt⟩
  · obtain ⟨c, hc, hspeaks⟩ := (hspeak acts).speaks i socket hsocket
    obtain ⟨letters, hsub, hsent⟩ := hspeaks.sent
    exact ⟨c, letters, hc, hsent, hsub⟩
  · rw [run_append]
    exact (hspeak before).query_ok hok

end Links

end Netfilter
