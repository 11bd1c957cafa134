import Netfilter.Pool.Desk
import Netfilter.Proofs.Pool.Leases

/-!
# The books of a desk balance

Whatever the clients of a desk do, and in whatever order, each slot of its pool
is free or out under exactly one of the names that leases are kept under. No
lease that is kept is refused when it is given back, and every lease begins
empty.
-/

namespace Netfilter

namespace Lease

variable {leases : List (Nat × Lease)} {name : Nat} {l : Lease}

theorem filter_of_lookup_none (h : leases.lookup name = none) :
    leases.filter (·.1 ≠ name) = leases := by
  rw [List.filter_eq_self]
  intro e he
  have hne : ¬ name = e.1 := by simpa using List.lookup_eq_none_iff.1 h e he
  exact decide_eq_true (Ne.symm hne)

/-- Under distinct names, a lease and those under other names are all there are. -/
theorem perm_of_lookup (hnames : (leases.map Prod.fst).Nodup) (h : leases.lookup name = some l) :
    leases.Perm ((name, l) :: leases.filter (·.1 ≠ name)) := by
  obtain ⟨before, after, rfl, hbefore⟩ := List.lookup_eq_some_iff.1 h
  rw [List.map_append, List.map_cons, List.nodup_middle, List.nodup_cons,
    List.mem_append, not_or] at hnames
  have hother : ∀ e ∈ before ++ after, e.1 ≠ name := by
    intro e he heq
    have hmem : name ∈ (before ++ after).map Prod.fst := heq ▸ List.mem_map_of_mem he
    rw [List.map_append, List.mem_append] at hmem
    exact hmem.elim hnames.1.1 hnames.1.2
  have hfilter : (before ++ (name, l) :: after).filter (·.1 ≠ name) = before ++ after := by
    rw [List.filter_append, List.filter_cons_of_neg (by simp), ← List.filter_append,
      List.filter_eq_self]
    simpa using hother
  rw [hfilter]
  exact List.perm_middle

theorem nodup_names_filter (hnames : (leases.map Prod.fst).Nodup) :
    ((leases.filter (·.1 ≠ name)).map Prod.fst).Nodup :=
  hnames.sublist (List.filter_sublist.map Prod.fst)

theorem nodup_names_cons (hnames : (leases.map Prod.fst).Nodup) :
    (((name, l) :: leases.filter (·.1 ≠ name)).map Prod.fst).Nodup := by
  rw [List.map_cons, List.nodup_cons]
  refine ⟨?_, nodup_names_filter hnames⟩
  simp [List.mem_map, List.mem_filter]

end Lease

namespace Desk

variable {d : Desk} {size : Nat} {name : Nat} {l : Lease}

def tickets (d : Desk) : List (Nat × UInt32) := d.leases.map (·.2.ticket)

/-- The names of the leases are distinct, and the tickets that are out are those of the leases. -/
structure Sound (size : Nat) (d : Desk) : Prop where
  names : (d.leases.map Prod.fst).Nodup
  accounts : d.pool.Accounts d.tickets
  capacity_eq : d.pool.capacity = size

theorem sound_ofCount (count bufferSize : Nat) :
    (ofCount count bufferSize).Sound (max count 1) where
  names := List.nodup_nil
  accounts := Pool.accounts_ofCount count bufferSize
  capacity_eq := by simp [ofCount, Pool.ofCount, Pool.capacity]

theorem Sound.tickets_perm (h : d.Sound size) (hl : d.lease? name = some l) :
    d.tickets.Perm (l.ticket :: (d.leases.filter (·.1 ≠ name)).map (·.2.ticket)) :=
  (Lease.perm_of_lookup h.names hl).map _

/-- Only the pool and the leases matter. -/
theorem Sound.of_same {d' : Desk} (h : d.Sound size) (hpool : d'.pool = d.pool)
    (hleases : d'.leases = d.leases) : d'.Sound size where
  names := hleases ▸ h.names
  accounts := by
    rw [hpool, tickets, hleases]
    exact h.accounts
  capacity_eq := hpool ▸ h.capacity_eq

/-- A lease that is out, but is kept no longer, is taken back. -/
theorem sound_takeBack (hnames : (d.leases.map Prod.fst).Nodup)
    (haccounts : d.pool.Accounts (l.ticket :: d.tickets)) (hcapacity : d.pool.capacity = size) :
    (d.takeBack l).Sound size := by
  obtain ⟨pool, hback, -, -, hsame, haccounts'⟩ := haccounts.giveBack
  unfold takeBack
  simp only [hback]
  exact ⟨hnames, haccounts', hsame.trans hcapacity⟩

/-- A lease that is out, but not yet kept, is kept under a name. -/
theorem sound_enter (hnames : (d.leases.map Prod.fst).Nodup)
    (haccounts : d.pool.Accounts (l.ticket :: d.tickets)) (hcapacity : d.pool.capacity = size) :
    (d.enter name l).Sound size := by
  unfold enter
  cases hl : d.lease? name with
  | none =>
      have hsame : d.leases.filter (·.1 ≠ name) = d.leases := Lease.filter_of_lookup_none hl
      refine ⟨Lease.nodup_names_cons hnames, ?_, hcapacity⟩
      rw [tickets, hsame]
      exact haccounts
  | some older =>
      have hperm := (Lease.perm_of_lookup hnames hl).map (·.2.ticket)
      exact sound_takeBack (Lease.nodup_names_cons hnames)
        (haccounts.perm ((hperm.cons l.ticket).trans (List.Perm.swap _ _ _))) hcapacity

theorem Sound.tryLease_cases (h : d.Sound size) (name : Nat) :
    (d.pool.available = 0 ∧ d.tryLease name = (none, d)) ∨
      ∃ l pool, d.tryLease name = (some l, { d with pool }.enter name l) ∧
        d.pool.available = pool.available + 1 ∧ l.data = [] ∧
        (d.tryLease name).2.Sound size := by
  unfold tryLease
  rcases h.accounts.lease?_cases with ⟨hempty, hl⟩ | ⟨l, pool, hl, hcount, hdata, hsame, hout⟩
  · exact .inl ⟨hempty, by simp only [hl]⟩
  · refine .inr ⟨l, pool, by simp only [hl], hcount, hdata, ?_⟩
    simp only [hl]
    exact sound_enter h.names hout (hsame.trans h.capacity_eq)

theorem Sound.tryLease (h : d.Sound size) (name : Nat) : (d.tryLease name).2.Sound size := by
  rcases h.tryLease_cases name with ⟨-, hnone⟩ | ⟨l, pool, -, -, -, hsound⟩
  · rw [hnone]
    exact h
  · exact hsound

theorem Sound.giveUp (h : d.Sound size) (name : Nat) : (d.giveUp name).Sound size :=
  h.of_same rfl rfl

theorem Sound.edit (h : d.Sound size) (name : Nat) (change : Bytes → Bytes) :
    (d.edit name change).2.Sound size := by
  unfold Desk.edit
  cases hl : d.lease? name with
  | none => exact h
  | some l =>
      -- A ticket does not show what a lease holds.
      have hperm := h.tickets_perm hl
      exact ⟨Lease.nodup_names_cons h.names, h.accounts.perm hperm, h.capacity_eq⟩

/-- Looking again comes to one try: it is in vain only if no buffer is free, and then a second one
would be, too. -/
theorem Sound.lookAgain_cases (h : d.Sound size) (name : Nat) :
    (d.pool.available = 0 ∧ ∃ permit, d.lookAgain name = (.pending,
        { d with wakeup := Wakeup.join { d.wakeup.wake name with permit } name })) ∨
      ∃ l pool d', d' = Desk.enter { d with pool, wakeup := d.wakeup.wake name } name l ∧
        d.lookAgain name = (.leased l, { d' with waits := d'.waits.erase name }) ∧
        d.pool.available = pool.available + 1 ∧ l.data = [] ∧ d'.Sound size := by
  have hawake : Desk.Sound size { d with wakeup := d.wakeup.wake name } := h.of_same rfl rfl
  unfold lookAgain
  rcases hawake.tryLease_cases name with ⟨hempty, hnone⟩ | ⟨l, pool, hsome, hcount, hdata, hsound⟩
  · refine .inl ⟨hempty, ?_⟩
    simp only [hnone]
    by_cases hpermit : (d.wakeup.wake name).permit
    · have hspent : Desk.Sound size
          { d with wakeup := { d.wakeup.wake name with permit := false } } := h.of_same rfl rfl
      rcases hspent.tryLease_cases name with ⟨-, hagain⟩ | ⟨l, pool, -, hcount, -⟩
      · exact ⟨false, by simp only [hpermit, if_true, hagain]⟩
      · exact absurd hempty (Nat.ne_of_gt (Nat.lt_of_lt_of_eq (Nat.succ_pos _) hcount.symm))
    · exact ⟨(d.wakeup.wake name).permit, by simp only [if_neg hpermit]⟩
  · rw [hsome] at hsound
    exact .inr ⟨l, pool, _, rfl, by simp only [hsome], hcount, hdata, hsound⟩

theorem Sound.lookAgain (h : d.Sound size) (name : Nat) : (d.lookAgain name).2.Sound size := by
  rcases h.lookAgain_cases name with ⟨-, permit, hlook⟩ | ⟨l, pool, d', -, hlook, -, -, hsound⟩
  · rw [hlook]
    exact h.of_same rfl rfl
  · rw [hlook]
    exact hsound.of_same rfl rfl

inductive Moves (d : Desk) : Desk → Prop
  | stay : Moves d d
  | lease (name : Nat) : Moves d (d.tryLease name).2
  | edit (name : Nat) (change : Bytes → Bytes) : Moves d (d.edit name change).2
  | giveBack (name : Nat) (l : Lease) (hl : d.lease? name = some l) :
      Moves d ({ d with leases := d.leases.filter (·.1 ≠ name) }.takeBack l)
  | await (name : Nat) (hfresh : name ∉ d.waits) : Moves d { d with waits := d.waits ++ [name] }
  | awaitAnew (name : Nat) (hold : name ∈ d.waits) :
      Moves d { d.giveUp name with waits := (d.giveUp name).waits ++ [name] }
  | giveUp (name : Nat) (hold : name ∈ d.waits) : Moves d (d.giveUp name)
  | lookAgain (name : Nat) (hold : name ∈ d.waits) (hline : name ∉ d.wakeup.waiting) :
      Moves d (d.lookAgain name).2

theorem step_lease_snd (d : Desk) (name : Nat) :
    (d.step (.lease name)).2 = (d.tryLease name).2 := by
  rcases htry : d.tryLease name with ⟨_ | l, d'⟩ <;> simp only [step, htry]

theorem moves_step (d : Desk) (a : Action) : d.Moves (d.step a).2 := by
  cases a with
  | lease name =>
      rw [step_lease_snd]
      exact .lease name
  | await name =>
      by_cases hold : name ∈ d.waits
      · simpa only [step, if_pos hold] using .awaitAnew name hold
      · simpa only [step, if_neg hold] using .await name hold
  | poll name =>
      by_cases hold : name ∈ d.waits
      · by_cases hline : name ∈ d.wakeup.waiting
        · simpa [step, hold, hline] using .stay
        · simpa [step, hold, hline] using .lookAgain name hold hline
      · simpa [step, hold] using .stay
  | cancel name =>
      by_cases hold : name ∈ d.waits
      · simpa only [step, if_pos hold] using .giveUp name hold
      · simpa only [step, if_neg hold] using .stay
  | fill name data => exact .edit name _
  | extend name data => exact .edit name _
  | giveBack name =>
      cases hl : d.lease? name with
      | none => simpa only [step, hl] using .stay
      | some l => simpa only [step, hl] using .giveBack name l hl

theorem Sound.moves {d' : Desk} (h : d.Sound size) (hmoves : d.Moves d') : d'.Sound size := by
  cases hmoves with
  | stay => exact h
  | lease name => exact h.tryLease name
  | edit name change => exact h.edit name change
  | giveBack name l hl =>
      have hperm := h.tickets_perm hl
      exact sound_takeBack (Lease.nodup_names_filter h.names) (h.accounts.perm hperm) h.capacity_eq
  | await name hfresh => exact h.of_same rfl rfl
  | awaitAnew name hold => exact (h.giveUp name).of_same rfl rfl
  | giveUp name hold => exact h.giveUp name
  | lookAgain name hold hline => exact h.lookAgain name

theorem Sound.run (h : d.Sound size) (actions : List Action) : (d.run actions).2.Sound size := by
  induction actions generalizing d with
  | nil => exact h
  | cons a actions ih => exact ih (h.moves (d.moves_step a))

theorem lease?_takeBack (d : Desk) (l : Lease) (name : Nat) :
    (d.takeBack l).lease? name = d.lease? name := by
  unfold takeBack
  cases d.pool.giveBack? l <;> rfl

theorem lease?_enter (d : Desk) (name : Nat) (l : Lease) :
    (d.enter name l).lease? name = some l := by
  unfold enter
  cases d.lease? name with
  | none => simp [lease?]
  | some older =>
      rw [lease?_takeBack]
      simp [lease?]

/-- The books of a desk whose pool was made with `count` slots. -/
structure Balanced (count : Nat) (d : Desk) : Prop where
  free_nodup : d.pool.free.Nodup
  mem_free_iff : ∀ i, i ∈ d.pool.free ↔ d.pool.Holds i
  stored_empty : ∀ (i : Nat) (data : Bytes) (generation : UInt32),
    d.pool.slots[i]? = some ⟨some data, generation⟩ → data = []
  slots_nodup : (d.leases.map (·.2.slot)).Nodup
  leased : ∀ e ∈ d.leases, e.2.slot ∉ d.pool.free ∧
    d.pool.slots[e.2.slot]? = some ⟨none, e.2.generation⟩
  returnable : ∀ e ∈ d.leases, ∃ pool, d.pool.giveBack? e.2 = some pool ∧ e.2.slot ∈ pool.free
  counted : d.pool.available + d.leases.length = d.pool.capacity
  capacity_eq : d.pool.capacity = max count 1
  lent_iff : ∀ name, (∃ l, (d.step (.lease name)).1 = .leased l) ↔ 0 < d.pool.available
  fresh : ∀ a name l, a = .lease name ∨ a = .poll name → (d.step a).1 = .leased l →
    l.data = [] ∧ (d.step a).2.lease? name = some l

theorem Sound.lease_reply (h : d.Sound size) (name : Nat) :
    (d.pool.available = 0 ∧ (d.step (.lease name)).1 = .nothing) ∨
      ∃ l, 0 < d.pool.available ∧ l.data = [] ∧ (d.step (.lease name)).1 = .leased l ∧
        (d.step (.lease name)).2.lease? name = some l := by
  unfold Desk.step
  rcases h.tryLease_cases name with ⟨hempty, hnone⟩ | ⟨l, pool, hsome, hcount, hdata, -⟩
  · exact .inl ⟨hempty, by simp only [hnone]⟩
  · exact .inr ⟨l, by omega, hdata, by simp only [hsome],
      by simp only [hsome, lease?_enter]⟩

theorem Sound.poll_reply (h : d.Sound size) {name : Nat} {l : Lease}
    (hreply : (d.step (.poll name)).1 = .leased l) :
    l.data = [] ∧ (d.step (.poll name)).2.lease? name = some l := by
  unfold Desk.step at *
  dsimp only at *
  split_ifs at * with hold hline
  rcases h.lookAgain_cases name with ⟨-, permit, hlook⟩ | ⟨l', pool, d', hd', hlook, -, hdata, -⟩
  · rw [hlook] at hreply
    cases hreply
  · rw [hlook] at hreply ⊢
    cases hreply
    have hkept : d'.lease? name = some l := by rw [hd', lease?_enter]
    exact ⟨hdata, hkept⟩

theorem Sound.balanced {count : Nat} (h : d.Sound (max count 1)) : d.Balanced count where
  free_nodup := h.accounts.consistent.nodup
  mem_free_iff := h.accounts.consistent.mem_free_iff
  stored_empty _ _ _ hslot := h.accounts.stored_empty hslot
  slots_nodup := by
    have hnodup := (List.nodup_append'.1 h.accounts.nodup).2.1
    rwa [tickets, List.map_map] at hnodup
  leased e he :=
    have ht : e.2.ticket ∈ d.tickets := List.mem_map_of_mem he
    ⟨h.accounts.not_mem_free ht, h.accounts.out _ ht⟩
  returnable e he := by
    have ht : e.2.ticket ∈ d.tickets := List.mem_map_of_mem he
    obtain ⟨pool, hback, -, hfree, -⟩ := (h.accounts.perm (List.perm_cons_erase ht)).giveBack
    exact ⟨pool, hback, hfree⟩
  counted := by
    have hcount := h.accounts.available_add_length
    rwa [tickets, List.length_map] at hcount
  capacity_eq := h.capacity_eq
  lent_iff name := by
    rcases h.lease_reply name with ⟨hempty, hreply⟩ | ⟨l, hfree, -, hreply, -⟩
    · simp [hreply, hempty]
    · simp [hreply, hfree]
  fresh a name l ha hreply := by
    rcases ha with rfl | rfl
    · rcases h.lease_reply name with ⟨-, hnothing⟩ | ⟨l', -, hdata, hleased, hkept⟩
      · rw [hnothing] at hreply
        cases hreply
      · rw [hleased] at hreply
        cases hreply
        exact ⟨hdata, hkept⟩
    · exact h.poll_reply hreply

theorem run_balanced (count bufferSize : Nat) (actions : List Action) :
    ((ofCount count bufferSize).run actions).2.Balanced count :=
  ((sound_ofCount count bufferSize).run actions).balanced

/-- What was in a buffer before is not seen by who leases it next. -/
example : ((ofCount 1 8).run [.lease 0, .fill 0 [1, 2], .giveBack 0, .lease 1]).1 =
    [.leased ⟨0, 0, []⟩, .leased ⟨0, 0, [1, 2]⟩, .nothing, .leased ⟨0, 1, []⟩] := by
  decide

end Desk

end Netfilter
