import Netfilter.Proofs.Queue.Stopping
import Netfilter.Proofs.Requests.Pursuit

/-!
# The channels of a handle are kept in order

A handle that is opened again and again has one channel for each socket. None of
them is in use but the last, and that one until it is closed. The channel in use
is open and its socket was not dropped; all others are closed, and their sockets
were dropped once.
-/

namespace Netfilter

namespace Channel

theorem Bears.stands {c c' : Channel} {d : Draft} {h : Headway} (hb : c.Bears d h c')
    {before : Socket} {sent : List Bytes} {whole : Bool} (hs : c.Stands before sent whole) :
    c'.Stands before (sent ++ h.datagrams d before.port) whole where
  isOpen := hb.isOpen.trans hs.isOpen
  holder := hb.turn ▸ hs.holder
  calls := hb.calls.trans hs.calls
  port := hb.port.trans hs.port
  drops := hb.drops.trans hs.drops
  sent := by
    have hport : c.port = before.port := hs.port
    rw [hb.sent, hs.sent, List.append_assoc, hport]

/-- Wherever channel `c` stands, `c'` stands too, except for what it may have sent. -/
def StandsBy (c c' : Channel) : Prop := ∀ ⦃before : Socket⦄ ⦃sent : List Bytes⦄ ⦃whole : Bool⦄,
  c.Stands before sent whole → ∃ sent', c'.Stands before sent' whole

theorem Bears.standsBy {c c' : Channel} {d : Draft} {h : Headway} (hb : c.Bears d h c') :
    c.StandsBy c' :=
  fun _ _ _ hs => ⟨_, hb.stands hs⟩

theorem standsBy_amid (c world : Channel) : c.StandsBy (c.amid world) :=
  fun _ sent _ hs => ⟨sent, hs.amid world⟩

theorem Stands.disown {c : Channel} {before : Socket} {sent : List Bytes}
    (h : c.Stands before sent false) : c.disown.Stands before sent false := by
  have hdisown : c.disown = { c with owned := false } := by
    simp [Channel.disown, settle, usesSocket, h.isOpen, h.calls]
  rw [hdisown]
  exact ⟨h.isOpen, h.holder, h.calls, h.port, h.drops, h.sent⟩

end Channel

namespace Links

/-- The channels were opened over these sockets, one after the other. The last may be in use. A
channel in use is open; any other is closed, and its socket was dropped once. -/
structure Tidy (sockets : List Socket) (l : Links) : Prop where
  length : l.channels.length = sockets.length
  latest : ∀ i, l.current = some i → i + 1 = sockets.length
  stands : ∀ (i : Nat) (socket : Socket), sockets[i]? = some socket →
    ∃ c sent, l.channels[i]? = some c ∧ c.Stands socket sent (l.current = some i)

variable {l : Links} {sockets : List Socket} {i : Nat} {c : Channel}

theorem current_close (l : Links) : l.close.current = none := by
  cases hcurrent : l.current with
  | none => rwa [close, hcurrent]
  | some i => rw [close, hcurrent]

theorem tidy_nil : ({} : Links).Tidy [] where
  length := rfl
  latest := nofun
  stands := by simp

namespace Tidy

theorem exists_socket (h : l.Tidy sockets) (hc : l.channels[i]? = some c) :
    ∃ socket sent, sockets[i]? = some socket ∧ c.Stands socket sent (l.current = some i) := by
  have hi : i < sockets.length := h.length ▸ (List.getElem?_eq_some_iff.1 hc).1
  obtain ⟨c', sent, hc', hstands⟩ := h.stands i sockets[i] (List.getElem?_eq_getElem hi)
  obtain rfl : c = c' := Option.some.inj (hc.symm.trans hc')
  exact ⟨sockets[i], sent, List.getElem?_eq_getElem hi, hstands⟩

theorem isOpen_channel (h : l.Tidy sockets) (hc : l.channels[i]? = some c) :
    c.isOpen = decide (l.current = some i) := by
  obtain ⟨socket, sent, -, hstands⟩ := h.exists_socket hc
  exact hstands.isOpen

theorem exists_uses (h : l.Tidy sockets) (hcurrent : l.current = some i) :
    ∃ c, l.Uses i c ∧ c.isOpen = true := by
  have hi : i < l.channels.length := by
    have hlatest := h.latest i hcurrent
    rw [h.length]
    omega
  have hchannel := List.getElem?_eq_getElem hi
  exact ⟨_, ⟨hcurrent, hchannel⟩, by rw [h.isOpen_channel hchannel, hcurrent, decide_eq_true rfl]⟩

/-- The handle is open as long as a channel is in use. -/
theorem isOpen_eq (h : l.Tidy sockets) : l.isOpen = l.current.isSome := by
  cases hcurrent : l.current with
  | none => simp [isOpen, channel?, hcurrent]
  | some i =>
      obtain ⟨c, huses, hopen⟩ := h.exists_uses hcurrent
      rw [huses.isOpen, hopen]
      rfl

/-- The channel in use is ready for requests. -/
theorem exists_ready (h : l.Tidy sockets) (hopen : l.isOpen = true) :
    ∃ i c, l.Uses i c ∧ c.Ready c.socket [] := by
  rw [h.isOpen_eq] at hopen
  obtain ⟨i, hcurrent⟩ := Option.isSome_iff_exists.1 hopen
  obtain ⟨c, huses, hwhole⟩ := h.exists_uses hcurrent
  obtain ⟨socket, sent, -, hstands⟩ := h.exists_socket huses.channel
  exact ⟨i, c, huses, hwhole, hstands.holder, hstands.calls, rfl, rfl, (List.append_nil _).symm⟩

/-- One channel may change as far as it still stands. -/
theorem put (h : l.Tidy sockets) (hc : l.channels[i]? = some c) {c' : Channel}
    (hstands : c.StandsBy c') : (l.put i c').Tidy sockets := by
  refine ⟨List.length_set.trans h.length, h.latest, fun j socket hj => ?_⟩
  obtain ⟨c₀, sent, hc₀, hs⟩ := h.stands j socket hj
  by_cases hij : i = j
  · subst hij
    obtain rfl : c = c₀ := Option.some.inj (hc.symm.trans hc₀)
    obtain ⟨sent', hs'⟩ := hstands hs
    exact ⟨c', sent', channels_put hc c', hs'⟩
  · exact ⟨c₀, sent, (List.getElem?_set_ne hij).trans hc₀, hs⟩

theorem pursue (h : l.Tidy sockets) (d : Draft) (course : List Moment) :
    (l.pursue d course).2.Tidy sockets := by
  have hpursues := l.pursues d course
  generalize l.pursue d course = pursued at hpursues ⊢
  cases hpursues with
  | refused hclosed => exact h
  | @carried i c huses hopen => exact h.put huses.channel (c.bears_pursue d course).standsBy

theorem close (h : l.Tidy sockets) : l.close.Tidy sockets := by
  cases hcurrent : l.current with
  | none => rwa [Links.close, hcurrent]
  | some i =>
      have hclose : l.close = { l.modify i (·.close.2) with current := none } := by
        rw [Links.close, hcurrent]
      rw [hclose]
      refine ⟨(List.length_modify _ _ _).trans h.length,
        fun j hj => absurd hj.symm (Option.some_ne_none j), fun j socket hj => ?_⟩
      obtain ⟨c, sent, hc, hs⟩ := h.stands j socket hj
      by_cases hij : i = j
      · subst hij
        exact ⟨c.close.2, sent, channels_modify hc _, hs.close⟩
      · refine ⟨c, sent, ?_, ?_⟩
        · simp [modify, hij, hc]
        · have hne : ¬ l.current = some j := by simp [hcurrent, hij]
          simpa [hne] using hs

theorem openWith (h : l.Tidy sockets) (settings : SocketSettings) (socket : Socket) :
    (l.openWith settings socket).Tidy (sockets ++ [socket]) := by
  have hclosed := h.close
  have huses := l.uses_openWith settings socket
  have hlatest := huses.current
  rw [hclosed.length] at hlatest
  refine ⟨?_, fun i hi => ?_, fun i socket' hi => ?_⟩
  · simp [Links.openWith, hclosed.length]
  · obtain rfl := Option.some.inj (hlatest.symm.trans hi)
    simp
  · by_cases hold : i < sockets.length
    · rw [List.getElem?_append_left hold] at hi
      obtain ⟨c, sent, hc, hs⟩ := hclosed.stands i socket' hi
      refine ⟨c, sent, ?_, ?_⟩
      · have hlt : i < l.close.channels.length := hclosed.length ▸ hold
        exact (List.getElem?_append_left hlt).trans hc
      · have hne : ¬ (l.openWith settings socket).current = some i := by
          rw [hlatest]
          simpa using Nat.ne_of_gt hold
        simpa [hne, current_close] using hs
    · have heq : i = sockets.length := by
        have hlt := (List.getElem?_eq_some_iff.1 hi).1
        rw [List.length_append, List.length_singleton] at hlt
        omega
      subst heq
      obtain rfl : socket = socket' := by simpa using hi
      refine ⟨_, [], hclosed.length ▸ huses.channel, ?_⟩
      rw [decide_eq_true hlatest]
      exact Channel.stands_true_iff.2 (Channel.ready_tune socket settings.options)

theorem sweep (h : l.Tidy sockets) (isUsed : Nat → Bool) : (l.sweep isUsed).Tidy sockets := by
  refine ⟨List.length_mapIdx.trans h.length, h.latest, fun i socket hi => ?_⟩
  obtain ⟨c, sent, hc, hs⟩ := h.stands i socket hi
  have hmapped : (l.sweep isUsed).channels[i]? =
      some (if c.owned && !isUsed i && l.current ≠ some i then c.disown else c) := by
    simp [Links.sweep, List.getElem?_mapIdx, hc]
  refine ⟨_, sent, hmapped, ?_⟩
  change Channel.Stands _ _ (decide (l.current = some i)) _
  split_ifs with hlet
  · have hne : decide (l.current = some i) = false := by
      simp only [Bool.and_eq_true, decide_eq_true_eq] at hlet
      exact decide_eq_false hlet.2
    rw [hne] at hs ⊢
    exact hs.disown
  · exact hs

/-- Every socket has been dropped once, but for the one that is in use. -/
theorem drops (h : l.Tidy sockets) {socket : Socket} (hi : sockets[i]? = some socket) :
    ∃ c, l.channels[i]? = some c ∧ c.socket.port = socket.port ∧
      (c.socket.drops = socket.drops +
        if l.isOpen = true ∧ i + 1 = sockets.length then 0 else 1) := by
  obtain ⟨c, sent, hc, hs⟩ := h.stands i socket hi
  refine ⟨c, hc, hs.port, ?_⟩
  rw [hs.drops, h.isOpen_eq]
  congr 1
  cases hcurrent : l.current with
  | none => simp
  | some j =>
      have hlatest := h.latest j hcurrent
      simp only [Option.some.injEq, decide_eq_true_eq, Option.isSome_some, true_and]
      congr 1
      exact propext ⟨fun hji => hji ▸ hlatest, fun hi => by omega⟩

end Tidy

end Links

end Netfilter
