import Mathlib
import Netfilter.Log.Group
import Netfilter.Proofs.Requests.Upkeep

/-!
# Setting up a list of log groups

An operation on log groups is one request for each group, and bringing the groups
up is a list of operations. The requests are made in the order of the plan up to
the first that is not acknowledged, and nothing is sent after that one. Settings
are recorded for all groups or for none.
-/

namespace Netfilter.Log

structure Attempt where
  request : Request
  headway : Headway

namespace Attempt

def Succeeds (a : Attempt) : Prop := a.headway.isAcknowledged = true

def answer (a : Attempt) : Outcome Unit := a.headway.answer a.request.label

def datagrams (family : UInt16) (port : UInt32) (a : Attempt) : List Bytes :=
  a.headway.datagrams (a.request.draft family) port

theorem succeeds_iff (a : Attempt) : a.Succeeds ↔ a.answer = .ok () :=
  a.headway.isAcknowledged_iff_answer a.request.label

end Attempt

/-- The requests of a plan were made in order. All of them succeeded, or those up to the last one
did, and the answer to that one is what came of the plan. -/
inductive Follows (plan : List Request) : List Attempt → Outcome Unit → Prop
  | whole {attempts : List Attempt} (requests : attempts.map Attempt.request = plan)
      (succeed : ∀ a ∈ attempts, a.Succeeds) : Follows plan attempts (.ok ())
  | stopped {front : List Attempt} {last : Attempt} {later : List Request}
      (requests : front.map Attempt.request ++ last.request :: later = plan)
      (succeed : ∀ a ∈ front, a.Succeeds) (fails : ¬ last.Succeeds) :
      Follows plan (front ++ [last]) last.answer

namespace Follows

variable {plan plan' : List Request} {attempts attempts' : List Attempt}
  {outcome outcome' : Outcome Unit}

theorem append (h : Follows plan attempts outcome) (hok : outcome = .ok ())
    (h' : Follows plan' attempts' outcome') :
    Follows (plan ++ plan') (attempts ++ attempts') outcome' := by
  cases h with
  | stopped requests succeed fails => exact absurd ((Attempt.succeeds_iff _).2 hok) fails
  | whole requests succeed =>
      cases h' with
      | whole requests' succeed' =>
          refine .whole (by rw [List.map_append, requests, requests']) fun a ha => ?_
          exact (List.mem_append.1 ha).elim (succeed a) (succeed' a)
      | @stopped front last later requests' succeed' fails =>
          have hrequests : (attempts ++ front).map Attempt.request ++ last.request :: later =
              plan ++ plan' := by
            rw [List.map_append, List.append_assoc, requests, requests']
          rw [← List.append_assoc]
          refine .stopped hrequests (fun a ha => ?_) fails
          exact (List.mem_append.1 ha).elim (succeed a) (succeed' a)

theorem append_of_ne (h : Follows plan attempts outcome) (hne : outcome ≠ .ok ())
    (later : List Request) : Follows (plan ++ later) attempts outcome := by
  cases h with
  | whole requests succeed => exact absurd rfl hne
  | @stopped front last rest requests succeed fails =>
      have hrequests : front.map Attempt.request ++ last.request :: (rest ++ later) =
          plan ++ later := by
        rw [← requests]
        simp
      exact .stopped hrequests succeed fails

theorem one (a : Attempt) : Follows [a.request] [a] a.answer := by
  by_cases hsucceeds : a.Succeeds
  · rw [a.succeeds_iff.1 hsucceeds]
    exact .whole rfl (by simpa using hsucceeds)
  · have hrequests : ([] : List Attempt).map Attempt.request ++ a.request :: [] = [a.request] := rfl
    exact .stopped hrequests nofun hsucceeds

theorem isPrefix (h : Follows plan attempts outcome) :
    attempts.map Attempt.request <+: plan := by
  cases h with
  | whole requests succeed => exact requests ▸ List.prefix_rfl
  | @stopped front last later requests succeed fails =>
      refine ⟨later, ?_⟩
      rw [← requests]
      simp

theorem ok_iff (h : Follows plan attempts outcome) :
    outcome = .ok () ↔ attempts.map Attempt.request = plan ∧ ∀ a ∈ attempts, a.Succeeds := by
  cases h with
  | whole requests succeed => exact iff_of_true rfl ⟨requests, succeed⟩
  | stopped requests succeed fails =>
      refine iff_of_false (fun hok => fails ((Attempt.succeeds_iff _).2 hok)) fun hall => ?_
      exact fails (hall.2 _ (List.mem_append_right _ (List.mem_singleton_self _)))

end Follows

def tunables (s : LogSettings) : List Tunable :=
  [.mode s.copyMode s.copyRange] ++ (s.bufferSize.map .bufferSize).toList
    ++ (s.timeout.map .timeout).toList ++ (s.threshold.map .threshold).toList
    ++ (s.flags.map .flags).toList

def plan (s : LogSettings) : List Request :=
  [.unbindFamily, .bindFamily] ++ s.groups.map .bind
    ++ (tunables s).flatMap fun tunable => s.groups.map fun group => .set group tunable

theorem flatMap_requests_bringUp (s : LogSettings) :
    (GroupOperation.bringUp s).flatMap (·.requests s.groups) = plan s := by
  have hbringUp : GroupOperation.bringUp s =
      [.unbindFamily, .bindFamily, .bindAll] ++ (tunables s).map .setAll := by
    cases hsize : s.bufferSize <;> cases htimeout : s.timeout <;>
      cases hthreshold : s.threshold <;> cases hflags : s.flags <;>
      simp [GroupOperation.bringUp, tunables, hsize, htimeout, hthreshold, hflags]
  rw [hbringUp, List.flatMap_append, List.flatMap_map]
  simp [plan, GroupOperation.requests]

/-- What is set when the groups are brought up is what the settings say. -/
theorem acknowledged_of_mem_bringUp {s : LogSettings} {op : GroupOperation}
    (hop : op ∈ GroupOperation.bringUp s) : op.acknowledged s = s := by
  simp only [GroupOperation.bringUp, List.mem_append, List.mem_cons, List.not_mem_nil, or_false,
    Option.mem_toList, Option.map_eq_some_iff] at hop
  rcases hop with ((((rfl | rfl | rfl | rfl) | ⟨n, hn, rfl⟩) | ⟨n, hn, rfl⟩) | ⟨n, hn, rfl⟩) |
    ⟨n, hn, rfl⟩
  -- the first four set nothing, or the copy mode that is set
  iterate 4 · rfl
  all_goals simp only [GroupOperation.acknowledged, Tunable.applyTo, ← hn]

namespace Tunable

def current (s : LogSettings) : Tunable → Option Tunable
  | mode _ _ => some (.mode s.copyMode s.copyRange)
  | bufferSize _ => s.bufferSize.map .bufferSize
  | timeout _ => s.timeout.map .timeout
  | threshold _ => s.threshold.map .threshold
  | flags _ => s.flags.map .flags

def erase (s : LogSettings) : Tunable → LogSettings
  | mode _ _ => { s with copyMode := .nothing, copyRange := 0 }
  | bufferSize _ => { s with bufferSize := none }
  | timeout _ => { s with timeout := none }
  | threshold _ => { s with threshold := none }
  | flags _ => { s with flags := none }

theorem current_applyTo (t : Tunable) (s : LogSettings) : t.current (t.applyTo s) = some t := by
  cases t <;> rfl

theorem erase_applyTo (t : Tunable) (s : LogSettings) : t.erase (t.applyTo s) = t.erase s := by
  cases t <;> rfl

end Tunable

def onCourses {α β : Type} (xs : List α) (courses : Nat → β) : List (α × β) :=
  xs.zipIdx.map fun x => (x.1, courses x.2)

theorem map_fst_onCourses {α β : Type} (xs : List α) (courses : Nat → β) :
    (onCourses xs courses).map Prod.fst = xs := by
  rw [onCourses, List.map_map]
  exact List.zipIdx_map_fst _ _

theorem onCourses_const {α β : Type} (xs : List α) (course : β) :
    (onCourses xs fun _ => course) = xs.map fun x => (x, course) := by
  have hmap : (onCourses xs fun _ => course) =
      (xs.zipIdx.map Prod.fst).map fun x => (x, course) := by
    rw [List.map_map]
    rfl
  rw [hmap, List.zipIdx_map_fst]

namespace Group

def attempt (g : Group) (r : Request) (course : List Moment) : Headway × Group :=
  let (h, links) := g.links.pursue (r.draft g.settings.family) course
  (h, { g with links })

def attemptAll (g : Group) : List (Request × List Moment) → List Attempt × Outcome Unit × Group
  | [] => ([], .ok (), g)
  | (r, course) :: todo =>
      let (h, g) := g.attempt r course
      match h.answer r.label with
      | .ok () =>
          let (attempts, outcome, g) := g.attemptAll todo
          (⟨r, h⟩ :: attempts, outcome, g)
      | outcome => ([⟨r, h⟩], outcome, g)

/-- Carries an operation out, with the request for each group on its course, and records it if all
requests are acknowledged. -/
def carryOut (g : Group) (op : GroupOperation) (courses : Nat → List Moment) :
    List Attempt × Outcome Unit × Group :=
  match g.attemptAll (onCourses (op.requests g.settings.groups) courses) with
  | (attempts, .ok (), g) =>
      (attempts, .ok (), { g with settings := op.acknowledged g.settings })
  | (attempts, outcome, g) => (attempts, outcome, g)

def carryOutAll (g : Group) :
    List (GroupOperation × (Nat → List Moment)) → List Attempt × Outcome Unit × Group
  | [] => ([], .ok (), g)
  | (op, courses) :: ops =>
      match g.carryOut op courses with
      | (attempts, .ok (), g) =>
          let (later, outcome, g) := g.carryOutAll ops
          (attempts ++ later, outcome, g)
      | (attempts, outcome, g) => (attempts, outcome, g)

def establish (g : Group) (courses : Nat → Nat → List Moment) :
    List Attempt × Outcome Unit × Group :=
  match g.carryOutAll (onCourses (GroupOperation.bringUp g.settings) courses) with
  | (attempts, .error e, g) => (attempts, .error e, g.close)
  | (attempts, outcome, g) => (attempts, outcome, g)

theorem request_eq_attempt (g : Group) (r : Request) :
    g.request r = ((g.attempt r Channel.undisturbed).1.answer r.label,
      (g.attempt r Channel.undisturbed).2) := by
  rw [request, Links.query_eq_pursue]
  rfl

theorem requestAll_eq_attemptAll (g : Group) (requests : List Request) :
    g.requestAll requests =
      (g.attemptAll (requests.map fun r => (r, Channel.undisturbed))).2 := by
  induction requests generalizing g with
  | nil => rfl
  | cons r requests ih =>
      rw [requestAll, List.map_cons, attemptAll, request_eq_attempt]
      rcases g.attempt r Channel.undisturbed with ⟨h, g'⟩
      dsimp only
      cases h.answer r.label with
      | ok u => exact ih g'
      | error e | pending => rfl

theorem perform_eq_carryOut (g : Group) (op : GroupOperation) :
    g.perform op = (g.carryOut op fun _ => Channel.undisturbed).2 := by
  rw [perform, carryOut, requestAll_eq_attemptAll, onCourses_const]
  rcases g.attemptAll _ with ⟨attempts, outcome, g'⟩
  cases outcome <;> rfl

theorem performAll_eq_carryOutAll (g : Group) (ops : List GroupOperation) :
    g.performAll ops =
      (g.carryOutAll (ops.map fun op => (op, fun _ => Channel.undisturbed))).2 := by
  induction ops generalizing g with
  | nil => rfl
  | cons op ops ih =>
      rw [performAll, List.map_cons, carryOutAll, perform_eq_carryOut]
      rcases g.carryOut op fun _ => Channel.undisturbed with ⟨attempts, outcome, g'⟩
      cases outcome with
      | ok u => exact ih g'
      | error e | pending => rfl

theorem bringUp_eq_establish (g : Group) :
    g.bringUp = (g.establish fun _ _ => Channel.undisturbed).2 := by
  rw [bringUp, establish, performAll_eq_carryOutAll, onCourses_const]
  rcases g.carryOutAll _ with ⟨attempts, outcome, g'⟩
  cases outcome <;> rfl

def Holds (i : Nat) (before : Socket) (sent : List Bytes) (g : Group) : Prop :=
  ∃ c, g.links.Uses i c ∧ c.Ready before sent

/-- What was made of a plan: it was followed, and what has been sent since is what was made. -/
structure Makes (plan : List Request) (i : Nat) (before : Socket) (sent : List Bytes) (g : Group)
    (made : List Attempt × Outcome Unit × Group) : Prop where
  follows : Follows plan made.1 made.2.1
  holds : made.2.2.Holds i before
    (sent ++ made.1.flatMap (·.datagrams g.settings.family before.port))

variable {g : Group} {i : Nat} {before : Socket} {sent : List Bytes}

theorem Holds.attempt (h : g.Holds i before sent) (r : Request) (course : List Moment) :
    (g.attempt r course).2.Holds i before
      (sent ++ Attempt.datagrams g.settings.family before.port ⟨r, (g.attempt r course).1⟩) := by
  obtain ⟨c, huses, hready⟩ := h
  have hbears := c.bears_pursue (r.draft g.settings.family) course
  rw [Group.attempt, huses.pursue hready.isOpen]
  exact ⟨_, huses.put _,
    Channel.stands_true_iff.1 (hbears.stands (Channel.stands_true_iff.2 hready))⟩

theorem Holds.attemptAll (h : g.Holds i before sent) (todo : List (Request × List Moment)) :
    Makes (todo.map Prod.fst) i before sent g (g.attemptAll todo) ∧
      (g.attemptAll todo).2.2.settings = g.settings := by
  induction todo generalizing g sent with
  | nil =>
      exact ⟨⟨.whole rfl (by simp [Group.attemptAll]), by simpa [Group.attemptAll] using h⟩, rfl⟩
  | cons call todo ih =>
      obtain ⟨r, course⟩ := call
      have hfirst := h.attempt r course
      have hsettings : (g.attempt r course).2.settings = g.settings := rfl
      rw [Group.attemptAll]
      generalize g.attempt r course = attempted at hfirst hsettings ⊢
      obtain ⟨headway, g'⟩ := attempted
      dsimp only at hfirst hsettings ⊢
      have hone := Follows.one ⟨r, headway⟩
      cases hanswer : headway.answer r.label with
      | ok u =>
          obtain ⟨⟨hfollows, hholds⟩, hsame⟩ := ih hfirst
          refine ⟨⟨hone.append hanswer hfollows, ?_⟩, hsame.trans hsettings⟩
          rw [hsettings, List.append_assoc] at hholds
          exact hholds
      | error e | pending =>
          have hne : Attempt.answer ⟨r, headway⟩ ≠ .ok () := by
            rw [Attempt.answer, hanswer]
            exact nofun
          have hstopped := hone.append_of_ne hne (todo.map Prod.fst)
          rw [Attempt.answer, hanswer] at hstopped
          exact ⟨⟨hstopped, by simpa using hfirst⟩, hsettings⟩

theorem Holds.carryOut (h : g.Holds i before sent) (op : GroupOperation)
    (courses : Nat → List Moment) :
    Makes (op.requests g.settings.groups) i before sent g (g.carryOut op courses) ∧
      (g.carryOut op courses).2.2.settings =
        if (g.carryOut op courses).2.1 = .ok () then op.acknowledged g.settings
        else g.settings := by
  have hall := h.attemptAll (onCourses (op.requests g.settings.groups) courses)
  rw [map_fst_onCourses] at hall
  rw [Group.carryOut]
  generalize g.attemptAll (onCourses (op.requests g.settings.groups) courses) = made at hall ⊢
  obtain ⟨attempts, outcome, g'⟩ := made
  obtain ⟨hmakes, hsettings⟩ := hall
  dsimp only at hmakes hsettings
  cases outcome with
  | ok u =>
      refine ⟨⟨hmakes.follows, hmakes.holds⟩, ?_⟩
      rw [if_pos rfl, ← hsettings]
  | error e | pending => exact ⟨hmakes, by rw [if_neg nofun, hsettings]⟩

/-- Operations that set what is set already. -/
theorem Holds.carryOutAll (h : g.Holds i before sent)
    {ops : List (GroupOperation × (Nat → List Moment))}
    (hops : ∀ p ∈ ops, p.1.acknowledged g.settings = g.settings) :
    Makes (ops.flatMap (·.1.requests g.settings.groups)) i before sent g (g.carryOutAll ops) ∧
      (g.carryOutAll ops).2.2.settings = g.settings := by
  induction ops generalizing g sent with
  | nil =>
      exact ⟨⟨.whole rfl (by simp [Group.carryOutAll]), by simpa [Group.carryOutAll] using h⟩, rfl⟩
  | cons op ops ih =>
      obtain ⟨op, courses⟩ := op
      obtain ⟨hmakes, hsettings⟩ := h.carryOut op courses
      have hsame : (g.carryOut op courses).2.2.settings = g.settings := by
        rw [hsettings, hops _ List.mem_cons_self, ite_self]
      clear hsettings
      rw [Group.carryOutAll]
      generalize g.carryOut op courses = made at hmakes hsame ⊢
      obtain ⟨attempts, outcome, g'⟩ := made
      obtain ⟨hfollows, hholds⟩ := hmakes
      dsimp only at hfollows hholds hsame
      -- the settings stay, so the operations that follow are for the same groups
      cases outcome with
      | ok u =>
          have hlater := ih hholds fun p hp => by
            rw [hsame]
            exact hops p (List.mem_cons_of_mem _ hp)
          rw [hsame] at hlater
          refine ⟨⟨hfollows.append rfl hlater.1.follows, ?_⟩, hlater.2⟩
          have hsent := hlater.1.holds
          rw [hsame, List.append_assoc, ← List.flatMap_append] at hsent
          exact hsent
      | error e => exact ⟨⟨hfollows.append_of_ne nofun _, hholds⟩, hsame⟩
      | pending => exact ⟨⟨hfollows.append_of_ne nofun _, hholds⟩, hsame⟩

inductive Undertaking
  | openWith (socket : Socket)
  | perform (op : GroupOperation) (courses : Nat → List Moment)
  | bringUp (courses : Nat → Nat → List Moment)
  | close

def Undertaking.socket? : Undertaking → Option Socket
  | openWith socket => some socket
  | _ => none

def undertake (g : Group) : Undertaking → Group
  | .openWith socket => g.openWith socket
  | .perform op courses => (g.carryOut op courses).2.2
  | .bringUp courses => (g.establish courses).2.2
  | .close => g.close

def conduct (g : Group) (undertakings : List Undertaking) : Group := undertakings.foldl undertake g

section

variable {P : Links → Prop} (hpursue : ∀ l d course, P l → P (l.pursue d course).2)

include hpursue

/-- What no request changes of the channels, no list of requests changes. -/
theorem keeps_attemptAll (h : P g.links) (todo : List (Request × List Moment)) :
    P (g.attemptAll todo).2.2.links := by
  induction todo generalizing g with
  | nil => exact h
  | cons call todo ih =>
      obtain ⟨r, course⟩ := call
      have hfirst : P (g.attempt r course).2.links := hpursue _ _ course h
      rw [attemptAll]
      generalize g.attempt r course = attempted at hfirst ⊢
      obtain ⟨headway, g'⟩ := attempted
      dsimp only at hfirst ⊢
      cases headway.answer r.label with
      | ok u => exact ih hfirst
      | error e | pending => exact hfirst

theorem keeps_carryOut (h : P g.links) (op : GroupOperation) (courses : Nat → List Moment) :
    P (g.carryOut op courses).2.2.links := by
  have hall := keeps_attemptAll hpursue h (onCourses (op.requests g.settings.groups) courses)
  rw [carryOut]
  generalize g.attemptAll (onCourses (op.requests g.settings.groups) courses) = made at hall ⊢
  obtain ⟨attempts, outcome, g'⟩ := made
  cases outcome <;> exact hall

theorem keeps_carryOutAll (h : P g.links)
    (ops : List (GroupOperation × (Nat → List Moment))) : P (g.carryOutAll ops).2.2.links := by
  induction ops generalizing g with
  | nil => exact h
  | cons op ops ih =>
      obtain ⟨op, courses⟩ := op
      have hfirst := keeps_carryOut hpursue h op courses
      rw [carryOutAll]
      generalize g.carryOut op courses = made at hfirst ⊢
      obtain ⟨attempts, outcome, g'⟩ := made
      cases outcome with
      | ok u => exact ih hfirst
      | error e | pending => exact hfirst

theorem keeps_establish (hclose : ∀ l, P l → P l.close) (h : P g.links)
    (courses : Nat → Nat → List Moment) : P (g.establish courses).2.2.links := by
  have hall := keeps_carryOutAll hpursue h
    (onCourses (GroupOperation.bringUp g.settings) courses)
  rw [establish]
  generalize g.carryOutAll (onCourses (GroupOperation.bringUp g.settings) courses) = made
    at hall ⊢
  obtain ⟨attempts, outcome, g'⟩ := made
  cases outcome with
  | error e => exact hclose _ hall
  | ok u | pending => exact hall

end

section

variable {sockets : List Socket}

theorem tidy_conduct (h : g.links.Tidy sockets) (undertakings : List Undertaking) :
    (g.conduct undertakings).links.Tidy
      (sockets ++ undertakings.filterMap Undertaking.socket?) := by
  induction undertakings generalizing g sockets with
  | nil => simpa [conduct] using h
  | cons u undertakings ih =>
      cases u with
      | openWith socket =>
          have hlater := ih (g := g.openWith socket) (h.openWith g.settings.socket socket)
          rwa [List.append_assoc] at hlater
      | perform op courses => exact ih (keeps_carryOut (fun _ d c hl => hl.pursue d c) h op courses)
      | bringUp courses =>
          exact ih (keeps_establish (fun _ d c hl => hl.pursue d c) (fun _ hl => hl.close) h courses)
      | close => exact ih (g := g.close) h.close

end

/-- What comes of bringing groups up. Channel `c`, of number `i`, was in use before. -/
structure BroughtUp (g : Group) (i : Nat) (c : Channel)
    (made : List Attempt × Outcome Unit × Group) : Prop where
  follows : Follows (plan g.settings) made.1 made.2.1
  requests : made.1.map Attempt.request <+: plan g.settings
  succeeds : made.2.1 = .ok () ↔
    made.1.map Attempt.request = plan g.settings ∧ ∀ a ∈ made.1, a.Succeeds
  settings : made.2.2.settings = g.settings
  /-- Unless a request fails, the channel is in use still. -/
  up : (∀ cause, made.2.1 ≠ .error cause) → ∃ c', made.2.2.links.Uses i c' ∧
    c'.Ready c.socket (made.1.flatMap (·.datagrams g.settings.family c.port))
  down : ∀ cause, made.2.1 = .error cause → made.2.2.isOpen = false ∧
    ∃ c', made.2.2.links.channels[i]? = some c' ∧
      c'.Closed c.socket (made.1.flatMap (·.datagrams g.settings.family c.port))

structure SetForAll (g : Group) (t : Tunable) (i : Nat) (c : Channel)
    (made : List Attempt × Outcome Unit × Group) : Prop where
  follows : Follows (g.settings.groups.map fun group => .set group t) made.1 made.2.1
  succeeds : made.2.1 = .ok () ↔
    made.1.map Attempt.request = (g.settings.groups.map fun group => .set group t) ∧
      ∀ a ∈ made.1, a.Succeeds
  updated : made.2.1 = .ok () → t.current made.2.2.settings = some t ∧
    t.erase made.2.2.settings = t.erase g.settings
  kept : made.2.1 ≠ .ok () → made.2.2.settings = g.settings
  channel : ∃ c', made.2.2.links.Uses i c' ∧
    c'.Ready c.socket (made.1.flatMap (·.datagrams g.settings.family c.port))

variable {c : Channel}

theorem broughtUp (huses : g.links.Uses i c) (hready : c.Ready c.socket [])
    (courses : Nat → Nat → List Moment) : g.BroughtUp i c (g.establish courses) := by
  have hholds : g.Holds i c.socket [] := ⟨c, huses, hready⟩
  have hops : ∀ p ∈ onCourses (GroupOperation.bringUp g.settings) courses,
      p.1.acknowledged g.settings = g.settings := by
    intro p hp
    have hmem := List.mem_map_of_mem (f := Prod.fst) hp
    rw [map_fst_onCourses] at hmem
    exact acknowledged_of_mem_bringUp hmem
  obtain ⟨hmakes, hsettings⟩ := hholds.carryOutAll hops
  have hplan : (onCourses (GroupOperation.bringUp g.settings) courses).flatMap
      (·.1.requests g.settings.groups) = plan g.settings := by
    rw [← flatMap_requests_bringUp, ← map_fst_onCourses (GroupOperation.bringUp g.settings) courses,
      List.flatMap_map, map_fst_onCourses]
  rw [hplan] at hmakes
  rw [establish]
  generalize g.carryOutAll (onCourses (GroupOperation.bringUp g.settings) courses) = made
    at hmakes hsettings ⊢
  obtain ⟨attempts, outcome, g'⟩ := made
  obtain ⟨hfollows, c', huses', hready'⟩ := hmakes
  cases outcome with
  | ok u | pending =>
      exact ⟨hfollows, hfollows.isPrefix, hfollows.ok_iff, hsettings,
        fun _ => ⟨c', huses', hready'⟩, nofun⟩
  | error e =>
      exact ⟨hfollows, hfollows.isPrefix, hfollows.ok_iff, hsettings,
        fun hne => absurd rfl (hne e),
        fun _ _ => ⟨g'.links.isOpen_close, _, huses'.close.2, hready'.close⟩⟩

theorem setForAll (huses : g.links.Uses i c) (hready : c.Ready c.socket []) (t : Tunable)
    (courses : Nat → List Moment) : g.SetForAll t i c (g.carryOut (.setAll t) courses) := by
  have hholds : g.Holds i c.socket [] := ⟨c, huses, hready⟩
  obtain ⟨⟨hfollows, hchannel⟩, hsettings⟩ := hholds.carryOut (.setAll t) courses
  refine ⟨hfollows, hfollows.ok_iff, fun hok => ?_, fun hne => ?_, hchannel⟩
  · rw [hsettings, if_pos hok]
    exact ⟨t.current_applyTo _, t.erase_applyTo _⟩
  · rw [hsettings, if_neg hne]

/-- However a handle on log groups was used before, as long as it is open, bringing the groups up
makes the requests of the plan in order up to the first that is not acknowledged, and closes the
channel if that one failed. What is set for all groups is recorded if all of them acknowledge it. -/
theorem groups_set_in_order (settings : LogSettings) (undertakings : List Undertaking)
    (hopen : (conduct { settings } undertakings).isOpen = true) :
    let g := conduct { settings } undertakings
    ∃ i c, g.links.Uses i c ∧ (∀ courses, g.BroughtUp i c (g.establish courses)) ∧
      (∀ t courses, g.SetForAll t i c (g.carryOut (.setAll t) courses)) ∧
      g.bringUp = (g.establish fun _ _ => Channel.undisturbed).2 ∧
      ∀ op, g.perform op = (g.carryOut op fun _ => Channel.undisturbed).2 := by
  have htidy := tidy_conduct (g := { settings }) Links.tidy_nil undertakings
  obtain ⟨i, c, huses, hready⟩ := htidy.exists_ready hopen
  exact ⟨i, c, huses, broughtUp huses hready, setForAll huses hready, bringUp_eq_establish _,
    perform_eq_carryOut _⟩

def sampleSettings : LogSettings := { groups := [5, 9, 5], timeout := some 100 }

theorem groups_set_in_order_sampleSettings :
    let g := conduct { settings := sampleSettings } [.openWith { port := 7 }]
    g.isOpen = true ∧ (∃ i c, g.links.Uses i c ∧
      (∀ courses, g.BroughtUp i c (g.establish courses)) ∧
      ∀ t courses, g.SetForAll t i c (g.carryOut (.setAll t) courses)) ∧
      (plan g.settings).length = 11 ∧
      (g.establish fun _ _ => Channel.undisturbed).2.1 = .ok () ∧
      (g.establish fun _ i => if i = 1 then [.look] else Channel.undisturbed).1.length = 4 := by
  have hopen :
      (conduct { settings := sampleSettings } [.openWith { port := 7 }]).isOpen = true := by cbv
  obtain ⟨i, c, huses, hup, hset, -, -⟩ := groups_set_in_order sampleSettings _ hopen
  exact ⟨hopen, ⟨i, c, huses, hup, hset⟩, by cbv, by cbv, by cbv⟩

end Group

end Netfilter.Log
