import Netfilter.Proofs.Pool.Desk

/-!
# No wakeup is lost

While somebody waits in the line of a desk, there are at least as many who were
woken and have not looked yet as there are free buffers. A wait joins the line
only when no buffer is free, a buffer that comes back wakes one more, and of
those who look or give up each accounts for one buffer or wakes the next.
-/

namespace Netfilter

namespace Wakeup

variable {w : Wakeup} {n : Nat}

def unserved (w : Wakeup) : List Nat := w.waiting ++ w.woken

/-- While somebody waits, at least `n` were woken and have not looked since. -/
def Covers (w : Wakeup) (n : Nat) : Prop := w.waiting ≠ [] → n ≤ w.woken.length

theorem covers_zero (w : Wakeup) : w.Covers 0 := fun _ => Nat.zero_le _

theorem Covers.mono {m : Nat} (h : w.Covers n) (hle : m ≤ n) : w.Covers m :=
  fun hne => hle.trans (h hne)

/-- A signal wakes one more of those who wait, if there is anyone. -/
theorem Covers.signal (h : w.Covers n) : w.signal.Covers (n + 1) := by
  unfold Wakeup.signal
  cases hw : w.waiting with
  | nil => exact fun hne => absurd rfl hne
  | cons i waiting =>
      intro _
      have hle : n ≤ w.woken.length := h (by rw [hw]; exact List.cons_ne_nil i waiting)
      simpa using hle

theorem unserved_signal_perm (w : Wakeup) : w.signal.unserved.Perm w.unserved := by
  unfold Wakeup.signal unserved
  cases hw : w.waiting with
  | nil => simp
  | cons i waiting =>
      rw [← List.append_assoc]
      exact (List.perm_append_singleton i (waiting ++ w.woken)).trans (List.Perm.refl _)

theorem Covers.wake (h : w.Covers n) (i : Nat) : (w.wake i).Covers (n - 1) := by
  intro hne
  have hle : n ≤ w.woken.length := h hne
  have herase : w.woken.length - 1 ≤ (w.woken.erase i).length := List.le_length_erase
  exact (Nat.sub_le_sub_right hle 1).trans herase

/-- Whoever was woken and gives up wakes the next. -/
theorem Covers.leave (h : w.Covers n) (i : Nat) : (w.leave i).Covers n := by
  unfold Wakeup.leave
  by_cases hi : i ∈ w.woken
  · rw [if_pos hi]
    exact (h.wake i).signal.mono (by omega)
  · rw [if_neg hi]
    intro hne
    exact h fun hnil => hne (by simp [hnil])

theorem unserved_wake (h : i ∉ w.waiting) : (w.wake i).unserved = w.unserved.erase i := by
  rw [unserved, unserved, List.erase_append_right _ h, wake]

theorem unserved_leave_perm (hnodup : w.unserved.Nodup) (i : Nat) :
    (w.leave i).unserved.Perm (w.unserved.erase i) := by
  unfold Wakeup.leave
  by_cases hi : i ∈ w.woken
  · have hnot : i ∉ w.waiting := fun hw => (List.nodup_append'.1 hnodup).2.2 hw hi
    rw [if_pos hi, ← unserved_wake hnot]
    exact unserved_signal_perm _
  · rw [if_neg hi]
    by_cases hw : i ∈ w.waiting
    · rw [unserved, unserved, List.erase_append_left _ hw]
    · rw [unserved, unserved, List.erase_append_right _ hw, List.erase_of_not_mem hw,
        List.erase_of_not_mem hi]

end Wakeup

namespace Desk

variable {d d' : Desk} {size : Nat}

/-- Who waits is known and stands in one place, and free buffers are covered by those woken. -/
structure Attended (d : Desk) : Prop where
  names : d.waits.Nodup
  distinct : d.wakeup.unserved.Nodup
  known : ∀ i ∈ d.wakeup.unserved, i ∈ d.waits
  covers : d.wakeup.Covers d.pool.available

theorem attended_ofCount (count bufferSize : Nat) : (ofCount count bufferSize).Attended where
  names := List.nodup_nil
  distinct := List.nodup_nil
  known := nofun
  covers hne := absurd rfl hne

/-- The waits stay as they are, up to signals, and each buffer that comes back is covered. -/
structure Keeps (d d' : Desk) : Prop where
  waits_eq : d'.waits = d.waits
  unserved_perm : d'.wakeup.unserved.Perm d.wakeup.unserved
  covers : d.wakeup.Covers d.pool.available → d'.wakeup.Covers d'.pool.available

theorem keeps_takeBack (d : Desk) (l : Lease) : d.Keeps (d.takeBack l) := by
  unfold takeBack
  cases hback : d.pool.giveBack? l with
  | none => exact ⟨rfl, List.Perm.refl _, id⟩
  | some pool =>
      obtain ⟨-, rfl⟩ := Pool.giveBack?_eq_some hback
      exact ⟨rfl, d.wakeup.unserved_signal_perm, fun h => h.signal⟩

theorem keeps_enter (d : Desk) (name : Nat) (l : Lease) : d.Keeps (d.enter name l) := by
  unfold enter
  cases d.lease? name with
  | none => exact ⟨rfl, List.Perm.refl _, id⟩
  | some older =>
      have h := keeps_takeBack { d with leases := (name, l) :: d.leases.filter (·.1 ≠ name) } older
      exact ⟨h.waits_eq, h.unserved_perm, h.covers⟩

theorem keeps_edit (d : Desk) (name : Nat) (change : Bytes → Bytes) :
    d.Keeps (d.edit name change).2 := by
  unfold edit
  cases d.lease? name <;> exact ⟨rfl, List.Perm.refl _, id⟩

theorem Attended.keeps (h : d.Attended) (hkeeps : d.Keeps d') : d'.Attended where
  names := hkeeps.waits_eq ▸ h.names
  distinct := hkeeps.unserved_perm.nodup_iff.2 h.distinct
  known i hi := hkeeps.waits_eq ▸ h.known i (hkeeps.unserved_perm.mem_iff.1 hi)
  covers := hkeeps.covers h.covers

theorem Attended.tryLease (h : d.Attended) (hsound : d.Sound size) (name : Nat) :
    (d.tryLease name).2.Attended := by
  rcases hsound.tryLease_cases name with ⟨-, hnone⟩ | ⟨l, pool, hsome, hcount, -, -⟩
  · rw [hnone]
    exact h
  · have hle : pool.available ≤ d.pool.available := by omega
    have hleased : Desk.Attended { d with pool } :=
      ⟨h.names, h.distinct, h.known, h.covers.mono hle⟩
    rw [hsome]
    exact hleased.keeps (keeps_enter _ name l)

theorem Attended.giveUp (h : d.Attended) (name : Nat) : (d.giveUp name).Attended where
  names := h.names.erase name
  distinct := (d.wakeup.unserved_leave_perm h.distinct name).nodup_iff.2 (h.distinct.erase name)
  known i hi := by
    have hmem := (d.wakeup.unserved_leave_perm h.distinct name).mem_iff.1 hi
    obtain ⟨hne, hold⟩ := h.distinct.mem_erase_iff.1 hmem
    exact h.names.mem_erase_iff.2 ⟨hne, h.known i hold⟩
  covers := h.covers.leave name

theorem Attended.await {name : Nat} (h : d.Attended) (hfresh : name ∉ d.waits) :
    Desk.Attended { d with waits := d.waits ++ [name] } where
  names := by
    rw [List.nodup_append']
    exact ⟨h.names, List.nodup_singleton name, by simpa using hfresh⟩
  distinct := h.distinct
  known i hi := List.mem_append_left [name] (h.known i hi)
  covers := h.covers

/-- Whoever looks again leaves with a buffer, or there is none, and joins the line. -/
theorem Attended.lookAgain {name : Nat} (h : d.Attended) (hsound : d.Sound size)
    (hold : name ∈ d.waits) (hline : name ∉ d.wakeup.waiting) :
    (d.lookAgain name).2.Attended := by
  have hunserved : (d.wakeup.wake name).unserved = d.wakeup.unserved.erase name :=
    Wakeup.unserved_wake hline
  have hdistinct : (d.wakeup.wake name).unserved.Nodup := by
    rw [hunserved]
    exact h.distinct.erase name
  have hgone : name ∉ (d.wakeup.wake name).unserved := by
    rw [hunserved]
    exact h.distinct.not_mem_erase
  have hknown : ∀ i ∈ (d.wakeup.wake name).unserved, i ∈ d.waits := by
    intro i hi
    rw [hunserved] at hi
    exact h.known i (List.mem_of_mem_erase hi)
  rcases hsound.lookAgain_cases name with
    ⟨hempty, permit, hlook⟩ | ⟨l, pool, d', hd', hlook, hcount, -, -⟩
  · -- The line is one longer, and nothing is free.
    have hperm : (Wakeup.join { d.wakeup.wake name with permit } name).unserved.Perm
        (name :: (d.wakeup.wake name).unserved) := by
      change ((d.wakeup.wake name).waiting ++ [name] ++ _).Perm _
      rw [List.append_assoc]
      exact List.perm_middle
    rw [hlook]
    refine ⟨h.names, hperm.nodup_iff.2 (List.nodup_cons.2 ⟨hgone, hdistinct⟩), ?_, ?_⟩
    · intro i hi
      rcases List.mem_cons.1 (hperm.mem_iff.1 hi) with rfl | hi
      · exact hold
      · exact hknown i hi
    · rw [show Desk.pool _ = d.pool from rfl, hempty]
      exact Wakeup.covers_zero _
  · -- One of the woken looked, and one buffer was leased.
    have hle : pool.available ≤ d.pool.available - 1 := by omega
    have hleased : Desk.Attended { d with pool, wakeup := d.wakeup.wake name } :=
      ⟨h.names, hdistinct, hknown, (h.covers.wake name).mono hle⟩
    have hkeeps : Desk.Keeps { d with pool, wakeup := d.wakeup.wake name } d' :=
      hd' ▸ keeps_enter _ name l
    have hafter : d'.Attended := hleased.keeps hkeeps
    rw [hlook]
    refine ⟨hafter.names.erase name, hafter.distinct, fun i hi => ?_, hafter.covers⟩
    have hne : i ≠ name := by
      rintro rfl
      exact hgone (hkeeps.unserved_perm.mem_iff.1 hi)
    exact hafter.names.mem_erase_iff.2 ⟨hne, hafter.known i hi⟩

theorem Attended.moves (h : d.Attended) (hsound : d.Sound size) (hmoves : d.Moves d') :
    d'.Attended := by
  cases hmoves with
  | stay => exact h
  | lease name => exact h.tryLease hsound name
  | edit name change => exact h.keeps (keeps_edit d name change)
  | giveBack name l hl =>
      have hkeeps := keeps_takeBack { d with leases := d.leases.filter (·.1 ≠ name) } l
      exact h.keeps ⟨hkeeps.waits_eq, hkeeps.unserved_perm, hkeeps.covers⟩
  | await name hfresh => exact h.await hfresh
  | awaitAnew name hold => exact (h.giveUp name).await h.names.not_mem_erase
  | giveUp name hold => exact h.giveUp name
  | lookAgain name hold hline => exact h.lookAgain hsound hold hline

theorem Attended.run (h : d.Attended) (hsound : d.Sound size) (actions : List Action) :
    (d.run actions).2.Attended := by
  induction actions generalizing d with
  | nil => exact h
  | cons a actions ih =>
      have hmoves := d.moves_step a
      exact ih (h.moves hsound hmoves) (hsound.moves hmoves)

structure Alert (d : Desk) : Prop where
  covered : d.wakeup.waiting ≠ [] → d.pool.available ≤ d.wakeup.woken.length
  exhausted : d.wakeup.woken = [] → d.wakeup.waiting ≠ [] → d.pool.available = 0
  /-- Nobody stands in the line twice, or both in the line and among the woken. -/
  distinct : (d.wakeup.waiting ++ d.wakeup.woken).Nodup
  known : ∀ i ∈ d.wakeup.waiting ++ d.wakeup.woken, i ∈ d.waits
  /-- A wait that is not over after it was polled is in the line. -/
  inLine : ∀ name, (d.step (.poll name)).1 = .pending →
    name ∈ (d.step (.poll name)).2.wakeup.waiting
  /-- A wait that is not in the line is over when it is polled, if a buffer is free. -/
  looks : ∀ name ∈ d.waits, name ∉ d.wakeup.waiting →
    ((∃ l, (d.step (.poll name)).1 = .leased l) ↔ 0 < d.pool.available)

theorem Attended.alert (h : d.Attended) (hsound : d.Sound size) : d.Alert where
  covered := h.covers
  exhausted hwoken hwaiting := by
    have hle := h.covers hwaiting
    rwa [hwoken, List.length_nil, Nat.le_zero] at hle
  distinct := h.distinct
  known := h.known
  inLine name hreply := by
    by_cases hold : name ∈ d.waits
    · by_cases hline : name ∈ d.wakeup.waiting
      · simp [step, hold, hline]
      · rcases hsound.lookAgain_cases name with ⟨-, permit, hlook⟩ | ⟨l, pool, d', -, hlook, -⟩
        · simp [step, hold, hline, hlook, Wakeup.join]
        · simp [step, hold, hline, hlook] at hreply
    · simp [step, hold] at hreply
  looks name hold hline := by
    rcases hsound.lookAgain_cases name with
      ⟨hempty, permit, hlook⟩ | ⟨l, pool, d', -, hlook, hcount, -⟩
    · simp [step, hold, hline, hlook, hempty]
    · have hfree : 0 < d.pool.available := by omega
      simp [step, hold, hline, hlook, hfree]

theorem run_alert (count bufferSize : Nat) (actions : List Action) :
    ((ofCount count bufferSize).run actions).2.Alert := by
  have hsound := sound_ofCount count bufferSize
  exact ((attended_ofCount count bufferSize).run hsound actions).alert (hsound.run actions)

/-- Who was woken, but finds the buffer taken by somebody who did not wait, joins the line again. -/
example : (((ofCount 1 8).run
    [.lease 0, .await 1, .poll 1, .giveBack 0, .lease 2, .poll 1]).2.wakeup) =
    { waiting := [1] } := by
  decide

end Desk

end Netfilter
