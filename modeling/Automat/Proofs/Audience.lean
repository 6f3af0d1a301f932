import Automat.Audience
import Mathlib.Data.List.Nodup
import Mathlib.Data.List.Range
import Mathlib.Data.List.TakeWhile

/-!
What befalls an audience, and a log of it in which every callback notes its own calls. The log shows
that a notification reaches exactly those who are registered when it begins, and that a subscription
lasts until it is dropped or all are sent home (`Exact`, `entered_log`).
-/

namespace Automat

/-- What befalls an audience. -/
inductive Affair (M O : Type) where
  | join (callback : M → O → O × Reaction)
  | leave (id : Nat)
  | tell (message : M)
  /-- All are sent home. -/
  | close

namespace Affair

variable {M O : Type}

def isVisit : Affair M O → Bool
  | .join _ | .leave _ => true
  | .tell _ | .close => false

def message? : Affair M O → Option M
  | .tell message => some message
  | _ => none

def isClose : Affair M O → Bool
  | .close => true
  | _ => false

end Affair

/-- An entry in the log of an audience. -/
inductive Occurrence (M : Type) where
  | joined (id : Nat)
  /-- A subscription is given up, by a client or by a callback. -/
  | dropped (id : Nat)
  /-- A notification begins. -/
  | told (message : M)
  | called (id : Nat) (message : M)
  | closed

namespace Occurrence

variable {M : Type}

def joined? : Occurrence M → Option Nat
  | .joined id => some id
  | _ => none

def told? : Occurrence M → Option M
  | .told message => some message
  | _ => none

def called? : Occurrence M → Option (Nat × M)
  | .called id message => some (id, message)
  | _ => none

def isClosed : Occurrence M → Bool
  | .closed => true
  | _ => false

/-- Whether the subscription is no longer registered afterwards. -/
def ends (id : Nat) : Occurrence M → Bool
  | .dropped other => other = id
  | .closed => true
  | _ => false

end Occurrence

namespace Audience

variable {M O : Type}

/-! ## Keeping the log -/

def undergo (audience : Audience M O) : Affair M O → Audience M O
  | .join callback => audience.add callback
  | .leave id => audience.drop [id]
  | .tell message => audience.notify message
  | .close => audience.clear

def after (observers : O) (affairs : List (Affair M O)) : Audience M O :=
  affairs.foldl undergo (.empty observers)

/-- The callback of a subscription when it also notes that it is called, and whom it drops. -/
def noting (id : Nat) (callback : M → O → O × Reaction) (message : M)
    (world : O × List (Occurrence M)) : (O × List (Occurrence M)) × Reaction :=
  let (next, reaction) := callback message world.1
  ((next, world.2 ++ .called id message :: reaction.dropped.map .dropped), reaction)

def note (occurrence : Occurrence M) (audience : Audience M (O × List (Occurrence M))) :
    Audience M (O × List (Occurrence M)) :=
  { audience with world := (audience.world.1, audience.world.2 ++ [occurrence]) }

/-- Lets an audience undergo something while the log is kept: the beginning of it is noted, and
those who join note their calls. -/
def undergoNoted (audience : Audience M (O × List (Occurrence M))) :
    Affair M O → Audience M (O × List (Occurrence M))
  | .join callback =>
    (audience.note (.joined audience.nextId)).add (noting audience.nextId callback)
  | .leave id => (audience.note (.dropped id)).drop [id]
  | .tell message => (audience.note (.told message)).notify message
  | .close => (audience.note .closed).clear

def noted (observers : O) (affairs : List (Affair M O)) : Audience M (O × List (Occurrence M)) :=
  affairs.foldl undergoNoted (.empty (observers, []))

def log (observers : O) (affairs : List (Affair M O)) : List (Occurrence M) :=
  (noted observers affairs).world.2

/-- The audience when its callbacks note their calls, with the log so far. -/
def withLog (log : List (Occurrence M)) (audience : Audience M O) :
    Audience M (O × List (Occurrence M)) :=
  { nextId := audience.nextId
    subscribers := audience.subscribers.map fun s => ⟨s.id, noting s.id s.callback⟩
    world := (audience.world, log) }

/-! ## What the log shows -/

/-- Those who have joined and not been dropped or sent home since, in the order in which they have
joined. -/
def registered : List (Occurrence M) → List Nat
  | [] => []
  | .joined id :: later =>
    if later.any (·.ends id) then registered later else id :: registered later
  | _ :: later => registered later

/-- The calls until the next notification begins. -/
def calls (later : List (Occurrence M)) : List (Nat × M) :=
  (later.takeWhile (·.told?.isNone)).filterMap (·.called?)

/-- The messages with which the callback of a subscription is called. -/
def received (id : Nat) (log : List (Occurrence M)) : List M :=
  ((log.filterMap (·.called?)).filter (·.1 = id)).map (·.2)

def season (id : Nat) (later : List (Occurrence M)) : List M :=
  (later.takeWhile (!·.ends id)).filterMap (·.told?)

/-- The log of an audience accounts for all calls and for all who are registered. -/
structure Exact (log : List (Occurrence M)) (audience : Audience M O) : Prop where
  /-- Everybody has an id of their own. -/
  joined : log.filterMap (·.joined?) = List.range audience.nextId
  registered : audience.subscribers.map (·.id) = registered log
  known : ∀ call ∈ log.filterMap (·.called?), call.1 < audience.nextId
  /-- Nobody is called before the first notification. -/
  quiet : calls log = []
  /-- Until the next notification begins, those are called who were registered when this one did. -/
  called : ∀ before message later, log = before ++ .told message :: later →
    calls later = (Audience.registered before).map (·, message)
  /-- A subscription receives what is told between its beginning and its end. -/
  received : ∀ before id later, log = before ++ .joined id :: later →
    received id log = season id later

/-! ## Those who are registered -/

theorem registered_append (log entries : List (Occurrence M)) :
    registered (log ++ entries) =
      (registered log).filter (fun id => entries.all (!·.ends id)) ++ registered entries := by
  induction log with
  | nil => rfl
  | cons occurrence log ih =>
    cases occurrence with
    | joined id =>
      simp only [List.cons_append, registered, List.any_append]
      by_cases hlog : log.any (·.ends id) = true
      · simp only [hlog, Bool.true_or, if_true, ih]
      · rw [Bool.not_eq_true] at hlog
        simp only [hlog, Bool.false_or, List.all_eq_not_any_not, Bool.not_not]
        by_cases he : entries.any (·.ends id) = true
        · simp [he, ih, List.all_eq_not_any_not]
        · simp [he, ih, List.all_eq_not_any_not]
    | dropped | told | called | closed => simpa only [List.cons_append, registered] using ih

theorem registered_eq_nil {entries : List (Occurrence M)} (h : ∀ o ∈ entries, o.joined? = none) :
    registered entries = [] := by
  induction entries with
  | nil => rfl
  | cons occurrence entries ih =>
    have hrest := ih fun o ho => h o (List.mem_cons_of_mem _ ho)
    cases occurrence with
    | joined id => cases h _ List.mem_cons_self
    | dropped | told | called | closed => exact hrest

theorem registered_sublist (log : List (Occurrence M)) :
    (registered log).Sublist (log.filterMap (·.joined?)) := by
  induction log with
  | nil => exact .slnil
  | cons occurrence log ih =>
    cases occurrence with
    | joined id =>
      simp only [registered, List.filterMap_cons, Occurrence.joined?]
      split
      · exact ih.cons id
      · exact ih.cons_cons id
    | dropped | told | called | closed => exact ih

/-- Where every id is given once, a subscription is registered until something ends it. -/
theorem mem_registered_iff {before later : List (Occurrence M)} {id : Nat}
    (h : ((before ++ .joined id :: later).filterMap (·.joined?)).Nodup) :
    id ∈ registered (before ++ .joined id :: later) ↔ ∀ o ∈ later, o.ends id = false := by
  have hjoined : (before.filterMap (·.joined?) ++ id :: later.filterMap (·.joined?)).Nodup := by
    rwa [List.filterMap_append] at h
  have hbefore : id ∉ registered before := fun hmem =>
    (List.nodup_append.1 hjoined).2.2 id ((registered_sublist before).subset hmem) id
      List.mem_cons_self rfl
  have hlater : id ∉ registered later := fun hmem =>
    (List.nodup_cons.1 (List.nodup_append.1 hjoined).2.1).1
      ((registered_sublist later).subset hmem)
  rw [registered_append, List.mem_append, List.mem_filter, registered]
  cases hends : later.any (·.ends id) with
  | true =>
    have hsome : ¬ ∀ o ∈ later, o.ends id = false := by
      obtain ⟨o, ho, he⟩ := List.any_eq_true.1 hends
      intro hnone
      simp [hnone o ho] at he
    simp [hbefore, hlater, hsome]
  | false =>
    have hnone : ∀ o ∈ later, o.ends id = false := by simpa using hends
    simpa using hnone

/-! ## Calls and seasons -/

theorem takeWhile_append_of_mem {α : Type} {p : α → Bool} {list rest : List α} {a : α}
    (ha : a ∈ list) (hp : p a = false) :
    (list ++ rest).takeWhile p = list.takeWhile p := by
  induction list with
  | nil => cases ha
  | cons first list ih =>
    rw [List.cons_append, List.takeWhile_cons, List.takeWhile_cons]
    rcases List.mem_cons.1 ha with rfl | ha
    · rw [hp]
      rfl
    · rw [ih ha]

/-- Entries behind the last one are calls of the last notification only if there is no next one. -/
theorem calls_append {later entries : List (Occurrence M)} (h : calls entries = []) :
    calls (later ++ entries) = calls later := by
  unfold calls
  by_cases ht : ∀ o ∈ later, o.told?.isNone = true
  · rw [List.takeWhile_append_of_pos ht, List.filterMap_append, List.takeWhile_eq_self_iff.2 ht]
    exact (congrArg _ h).trans (List.append_nil _)
  · push Not at ht
    obtain ⟨o, ho, ht⟩ := ht
    rw [takeWhile_append_of_mem ho (Bool.not_eq_true _ ▸ ht)]

theorem season_append_of_ended {later : List (Occurrence M)} {id : Nat} {o : Occurrence M}
    (ho : o ∈ later) (he : o.ends id = true) (entries : List (Occurrence M)) :
    season id (later ++ entries) = season id later := by
  unfold season
  rw [takeWhile_append_of_mem ho (by rw [he]; rfl)]

theorem season_append {later : List (Occurrence M)} {id : Nat}
    (h : ∀ o ∈ later, o.ends id = false) (entries : List (Occurrence M)) :
    season id (later ++ entries) = season id later ++ season id entries := by
  have hlater : ∀ o ∈ later, (!o.ends id) = true := fun o ho => by rw [h o ho]; rfl
  unfold season
  rw [List.takeWhile_append_of_pos hlater, List.filterMap_append,
    List.takeWhile_eq_self_iff.2 hlater]

theorem received_append (id : Nat) (log entries : List (Occurrence M)) :
    received id (log ++ entries) = received id log ++ received id entries := by
  simp only [received, List.filterMap_append, List.filter_append, List.map_append]

/-- A message for everybody reaches each of them once. -/
theorem received_of_calls {entries : List (Occurrence M)} {ids : List Nat} {message : M} {id : Nat}
    (h : entries.filterMap (·.called?) = ids.map (·, message)) (hids : ids.Nodup) :
    received id entries = if id ∈ ids then [message] else [] := by
  unfold received
  rw [h, List.filter_map, List.map_map]
  show ((ids.filter (· = id)).map fun _ => message) = _
  rw [List.filter_eq]
  by_cases hid : id ∈ ids
  · rw [if_pos hid, List.count_eq_one_of_mem hids hid]
    rfl
  · rw [if_neg hid, List.count_eq_zero_of_not_mem hid]
    rfl

/-! ## Going on with a log -/

/-- Where something stands in two lists, one behind the other. -/
theorem append_eq_append_cons {α : Type} {list rest before later : List α} {a : α}
    (h : list ++ rest = before ++ a :: later) :
    (∃ middle, list = before ++ a :: middle ∧ later = middle ++ rest) ∨
      ∃ middle, before = list ++ middle ∧ rest = middle ++ a :: later := by
  rcases List.append_eq_append_iff.1 h with ⟨middle, hb, hr⟩ | ⟨middle, hl, hr⟩
  · exact .inr ⟨middle, hb, hr⟩
  · cases middle with
    | nil =>
      rw [List.append_nil] at hl
      rw [List.nil_append] at hr
      exact .inr ⟨[], by rw [hl, List.append_nil], hr.symm⟩
    | cons first middle =>
      rw [List.cons_append, List.cons.injEq] at hr
      obtain ⟨rfl, rfl⟩ := hr
      exact .inl ⟨middle, hl, rfl⟩

theorem Exact.nodup {log : List (Occurrence M)} {audience : Audience M O} (h : Exact log audience) :
    (log.filterMap (·.joined?)).Nodup := by
  rw [h.joined]
  exact List.nodup_range

theorem exact_empty (observers : O) : Exact ([] : List (Occurrence M)) (.empty observers) where
  joined := rfl
  registered := rfl
  known _ h := by cases h
  quiet := rfl
  called _ _ _ h := by simp at h
  received _ _ _ h := by simp at h

/-- Whatever is added to the log has to account for itself only. -/
theorem Exact.append {log entries : List (Occurrence M)} {audience next : Audience M O}
    (h : Exact log audience) (hnext : audience.nextId ≤ next.nextId)
    (hjoined : (log ++ entries).filterMap (·.joined?) = List.range next.nextId)
    (hregistered : next.subscribers.map (·.id) = Audience.registered (log ++ entries))
    (hknown : ∀ call ∈ entries.filterMap (·.called?), call.1 < next.nextId)
    (hquiet : calls entries = [])
    (hcalled : ∀ before message later, entries = before ++ .told message :: later →
      calls later = (Audience.registered (log ++ before)).map (·, message))
    (hreceived : ∀ id, Audience.received id entries =
      if id ∈ Audience.registered log then season id entries else [])
    (hnew : ∀ before id later, entries = before ++ .joined id :: later →
      Audience.received id (log ++ entries) = season id later) :
    Exact (log ++ entries) next where
  joined := hjoined
  registered := hregistered
  known call hc := by
    rw [List.filterMap_append, List.mem_append] at hc
    rcases hc with hc | hc
    · exact Nat.lt_of_lt_of_le (h.known call hc) hnext
    · exact hknown call hc
  quiet := by rw [calls_append hquiet, h.quiet]
  called before message later hsplit := by
    rcases append_eq_append_cons hsplit with ⟨middle, hlog, rfl⟩ | ⟨middle, rfl, hentries⟩
    · rw [calls_append hquiet]
      exact h.called before message middle hlog
    · exact hcalled middle message later hentries
  received before id later hsplit := by
    rcases append_eq_append_cons hsplit with ⟨middle, hlog, rfl⟩ | ⟨middle, rfl, hentries⟩
    · have hnodup : ((before ++ .joined id :: middle).filterMap (·.joined?)).Nodup := hlog ▸ h.nodup
      have hmem := mem_registered_iff hnodup
      rw [← hlog] at hmem
      rw [received_append, h.received before id middle hlog, hreceived]
      by_cases hends : ∀ o ∈ middle, o.ends id = false
      · rw [if_pos (hmem.2 hends), season_append hends]
      · rw [if_neg (fun hid => hends (hmem.1 hid)), List.append_nil]
        push Not at hends
        obtain ⟨o, ho, he⟩ := hends
        exact (season_append_of_ended ho (Bool.not_eq_false _ ▸ he) entries).symm
    · exact hnew middle id later hentries

theorem eq_or_mem_of_cons_eq_append_cons {α : Type} {first a : α} {rest before later : List α}
    (h : first :: rest = before ++ a :: later) :
    (before = [] ∧ first = a ∧ rest = later) ∨ a ∈ rest := by
  cases before with
  | nil =>
    rw [List.nil_append, List.cons.injEq] at h
    exact .inl ⟨rfl, h⟩
  | cons other before =>
    rw [List.cons_append, List.cons.injEq] at h
    rw [h.2]
    exact .inr (List.mem_append_right _ List.mem_cons_self)

theorem Exact.received_eq_nil {log : List (Occurrence M)} {audience : Audience M O}
    (h : Exact log audience) {id : Nat} (hid : audience.nextId ≤ id) :
    Audience.received id log = [] := by
  have hnone : (log.filterMap (·.called?)).filter (·.1 = id) = [] := by
    rw [List.filter_eq_nil_iff]
    intro call hc
    simpa using Nat.ne_of_lt (Nat.lt_of_lt_of_le (h.known call hc) hid)
  rw [Audience.received, hnone, List.map_nil]

/-- Clients come and go, and all may be sent home. -/
theorem Exact.snoc {log : List (Occurrence M)} {audience next : Audience M O} {o : Occurrence M}
    (h : Exact log audience) (ht : o.told? = none) (hc : o.called? = none)
    (hnext : audience.nextId ≤ next.nextId)
    (hjoined : (log ++ [o]).filterMap (·.joined?) = List.range next.nextId)
    (hregistered : next.subscribers.map (·.id) = Audience.registered (log ++ [o])) :
    Exact (log ++ [o]) next := by
  have hnothing (id : Nat) : Audience.received id [o] = [] := by simp [Audience.received, hc]
  refine h.append hnext hjoined hregistered (by simp [hc]) (by simp [calls, ht, hc]) ?_ ?_ ?_
  · intro before message later hsplit
    rcases eq_or_mem_of_cons_eq_append_cons hsplit with ⟨-, rfl, -⟩ | hmem
    · cases ht
    · cases hmem
  · intro id
    have hseason : season id [o] = [] := by
      unfold season
      cases hends : o.ends id <;> simp [hends, ht]
    rw [hnothing, hseason, ite_self]
  · intro before id later hsplit
    rcases eq_or_mem_of_cons_eq_append_cons hsplit with ⟨-, rfl, rfl⟩ | hmem
    · -- The id is a new one.
      have hid : audience.nextId ≤ id := by
        have hnodup := List.nodup_range (n := next.nextId)
        rw [← hjoined, List.filterMap_append, h.joined, List.nodup_append] at hnodup
        by_contra hlt
        exact hnodup.2.2 id (List.mem_range.2 (Nat.lt_of_not_le hlt)) id List.mem_cons_self rfl
      rw [received_append, h.received_eq_nil hid, hnothing]
      rfl
    · cases hmem

/-- What is noted while subscribers are told a message, the beginning apart. -/
structure Telling (message : M) (subscribers : List (Subscriber M O))
    (during : List (Occurrence M)) : Prop where
  called : during.filterMap (·.called?) = subscribers.map fun s => (s.id, message)
  silent : ∀ o ∈ during, o.told? = none ∧ o.joined? = none ∧ o.isClosed = false

theorem Telling.cons {message : M} {subscribers : List (Subscriber M O)}
    {during : List (Occurrence M)} (h : Telling message subscribers during) (s : Subscriber M O)
    (dropped : List Nat) : Telling message (s :: subscribers)
      (.called s.id message :: dropped.map .dropped ++ during) where
  called := by
    have hnone : (dropped.map (.dropped : Nat → Occurrence M)).filterMap (·.called?) = [] := by
      rw [List.filterMap_map, List.filterMap_eq_nil_iff]
      exact fun _ _ => rfl
    rw [List.filterMap_append, List.filterMap_cons, hnone, h.called]
    rfl
  silent o ho := by
    simp only [List.cons_append, List.mem_cons, List.mem_append, List.mem_map] at ho
    rcases ho with rfl | ⟨id, -, rfl⟩ | ho
    · exact ⟨rfl, rfl, rfl⟩
    · exact ⟨rfl, rfl, rfl⟩
    · exact h.silent o ho

/-- Everybody who is registered is told a message. -/
theorem Exact.told {log during : List (Occurrence M)} {audience next : Audience M O} {message : M}
    (h : Exact log audience) (hd : Telling message audience.subscribers during)
    (hnext : next.nextId = audience.nextId)
    (hregistered : next.subscribers.map (·.id) =
      Audience.registered (log ++ .told message :: during)) :
    Exact (log ++ .told message :: during) next := by
  have hcalled : during.filterMap (·.called?) = (Audience.registered log).map (·, message) := by
    rw [hd.called, ← h.registered, List.map_map]
    rfl
  have hjoined : during.filterMap (·.joined?) = [] :=
    List.filterMap_eq_nil_iff.2 fun o ho => (hd.silent o ho).2.1
  have hknown : ∀ id ∈ Audience.registered log, id < audience.nextId := by
    intro id hid
    rw [← List.mem_range, ← h.joined]
    exact (registered_sublist log).subset hid
  have hnodup : (Audience.registered log).Nodup := h.nodup.sublist (registered_sublist log)
  refine h.append hnext.ge ?_ hregistered ?_ rfl ?_ ?_ ?_
  · rw [List.filterMap_append, hnext, ← h.joined, List.filterMap_cons, hjoined]
    exact List.append_nil _
  · intro call hc
    change call ∈ during.filterMap (·.called?) at hc
    rw [hcalled, List.mem_map] at hc
    obtain ⟨id, hid, rfl⟩ := hc
    rw [hnext]
    exact hknown id hid
  · intro before other later hsplit
    rcases eq_or_mem_of_cons_eq_append_cons hsplit with ⟨rfl, hmessage, rfl⟩ | hmem
    · cases hmessage
      have hall : ∀ o ∈ during, o.told?.isNone = true := fun o ho => by rw [(hd.silent o ho).1]; rfl
      rw [List.append_nil, calls, List.takeWhile_eq_self_iff.2 hall, hcalled]
    · cases (hd.silent _ hmem).1
  · intro id
    have hseason : season id (.told message :: during) = [message] := by
      have hnone : ((during.takeWhile (!·.ends id)).filterMap (·.told?)) = [] :=
        List.filterMap_eq_nil_iff.2 fun o ho => (hd.silent o (List.takeWhile_subset _ ho)).1
      exact congrArg (message :: ·) hnone
    have hsame : Audience.received id (.told message :: during) = Audience.received id during := rfl
    rw [hsame, received_of_calls hcalled hnodup, hseason]
  · intro before id later hsplit
    rcases eq_or_mem_of_cons_eq_append_cons hsplit with ⟨-, hfirst, -⟩ | hmem
    · cases hfirst
    · cases (hd.silent _ hmem).2.1

/-! ## Every callback notes its own calls -/

theorem withLog_drop (ids : List Nat) (log : List (Occurrence M)) (audience : Audience M O) :
    (audience.withLog log).drop ids = (audience.drop ids).withLog log := by
  simp only [drop, withLog, List.filter_map]
  rfl

theorem withLog_add (callback : M → O → O × Reaction) (log : List (Occurrence M))
    (audience : Audience M O) :
    (audience.withLog log).add (noting audience.nextId callback) =
      (audience.add callback).withLog log := by
  simp only [add, withLog, List.map_append, List.map_cons, List.map_nil]

theorem withLog_call (message : M) (log : List (Occurrence M)) (audience : Audience M O)
    (s : Subscriber M O) :
    (audience.withLog log).call message ⟨s.id, noting s.id s.callback⟩ =
      (audience.call message s).withLog (log ++ .called s.id message ::
        (s.callback message audience.world).2.dropped.map .dropped) := by
  simp only [call, ← withLog_drop]
  rfl

theorem all_dropped (ids : List Nat) (id : Nat) :
    (ids.map (.dropped : Nat → Occurrence M)).all (!·.ends id) = !ids.contains id := by
  induction ids with
  | nil => rfl
  | cons other ids ih =>
    rw [List.map_cons, List.all_cons, ih, List.contains_cons, Bool.not_or]
    congr 2
    exact decide_eq_decide.2 eq_comm

theorem registered_drop {log : List (Occurrence M)} {audience : Audience M O}
    (h : audience.subscribers.map (·.id) = registered log) (ids : List Nat) :
    (audience.drop ids).subscribers.map (·.id) = registered (log ++ ids.map .dropped) := by
  have hnone : registered (ids.map (.dropped : Nat → Occurrence M)) = [] := by
    refine registered_eq_nil ?_
    intro o ho
    obtain ⟨id, -, rfl⟩ := List.mem_map.1 ho
    rfl
  rw [registered_append, hnone, List.append_nil, ← h, List.filter_map]
  simp only [all_dropped]
  rfl

theorem registered_append_cons {o : Occurrence M} (hj : o.joined? = none)
    (he : ∀ id, o.ends id = false) (log entries : List (Occurrence M)) :
    registered (log ++ o :: entries) = registered (log ++ entries) := by
  have hone : registered [o] = [] := registered_eq_nil (by simpa using hj)
  rw [← List.singleton_append, ← List.append_assoc, registered_append (log ++ [o]),
    registered_append log [o], hone, registered_append log entries]
  simp [he]

/-- Callbacks that are called one after the other note the calls, and in between whom they drop. -/
theorem withLog_foldl_call (message : M) (subscribers : List (Subscriber M O))
    {log : List (Occurrence M)} {audience : Audience M O}
    (h : audience.subscribers.map (·.id) = registered log) :
    ∃ during, Telling message subscribers during ∧
      (subscribers.map fun s => ⟨s.id, noting s.id s.callback⟩).foldl (call message)
          (audience.withLog log) =
        (subscribers.foldl (call message) audience).withLog (log ++ during) ∧
      (subscribers.foldl (call message) audience).nextId = audience.nextId ∧
      (subscribers.foldl (call message) audience).subscribers.map (·.id) =
        registered (log ++ during) := by
  induction subscribers generalizing log audience with
  | nil =>
    refine ⟨[], ⟨rfl, fun _ h => by cases h⟩, ?_, rfl, ?_⟩
    · rw [List.append_nil]
      rfl
    · rw [List.append_nil]
      exact h
  | cons s subscribers ih =>
    let dropped := (s.callback message audience.world).2.dropped
    have hnext : (audience.call message s).subscribers.map (·.id) =
        registered (log ++ .called s.id message :: dropped.map .dropped) := by
      rw [registered_append_cons rfl fun _ => rfl]
      exact registered_drop h dropped
    obtain ⟨during, hd, hfold, hid, hlast⟩ := ih hnext
    refine ⟨_, hd.cons s dropped, ?_, hid, ?_⟩
    · rw [List.map_cons, List.foldl_cons, withLog_call, hfold, List.append_assoc]
      rfl
    · rw [← List.append_assoc]
      exact hlast

/-- The entries with which the log goes on while an audience undergoes something. The keeping of the
log changes nothing else, and they hold all that is told, and whether all are sent home. -/
structure Entered (affairs : List (Affair M O)) (audience : Audience M O)
    (log entries : List (Occurrence M)) : Prop where
  noted : affairs.foldl undergoNoted (audience.withLog log) =
    (affairs.foldl undergo audience).withLog (log ++ entries)
  told : entries.filterMap (·.told?) = affairs.filterMap Affair.message?
  closed : entries.any (·.isClosed) = affairs.any Affair.isClose
  exact : Exact (log ++ entries) (affairs.foldl undergo audience)

theorem Exact.entered_single {log : List (Occurrence M)} {audience : Audience M O}
    (h : Exact log audience) (affair : Affair M O) :
    ∃ entries, Entered [affair] audience log entries := by
  cases affair with
  | join callback =>
    refine ⟨[.joined audience.nextId], withLog_add callback _ _, rfl, rfl,
      h.snoc rfl rfl (Nat.le_succ _) ?_ ?_⟩
    · rw [List.filterMap_append, h.joined]
      exact List.range_succ.symm
    · rw [registered_append]
      simp [undergo, add, h.registered, Audience.registered, Occurrence.ends]
  | leave id =>
    refine ⟨[.dropped id], withLog_drop [id] _ audience, rfl, rfl,
      h.snoc rfl rfl (Nat.le_refl _) ?_ (registered_drop h.registered [id])⟩
    rw [List.filterMap_append, h.joined]
    exact List.append_nil _
  | tell message =>
    have hready : audience.subscribers.map (·.id) =
        Audience.registered (log ++ [.told message]) := by
      rw [registered_append_cons rfl fun _ => rfl, List.append_nil]
      exact h.registered
    obtain ⟨during, hd, hfold, hid, hlast⟩ :=
      withLog_foldl_call message audience.subscribers hready
    rw [List.append_assoc] at hfold hlast
    have hnone : during.filterMap (·.told?) = [] :=
      List.filterMap_eq_nil_iff.2 fun o ho => (hd.silent o ho).1
    have hclosed : during.any (·.isClosed) = false := by
      rw [List.any_eq_false]
      exact fun o ho => Bool.not_eq_true _ ▸ (hd.silent o ho).2.2
    exact ⟨.told message :: during, hfold, congrArg (message :: ·) hnone, hclosed,
      h.told hd hid hlast⟩
  | close =>
    refine ⟨[.closed], rfl, rfl, rfl, h.snoc rfl rfl (Nat.le_refl _) ?_ ?_⟩
    · rw [List.filterMap_append, h.joined]
      exact List.append_nil _
    · rw [registered_append]
      simp [undergo, clear, Audience.registered, Occurrence.ends]

theorem Exact.entered {log : List (Occurrence M)} {audience : Audience M O}
    (h : Exact log audience) (affairs : List (Affair M O)) :
    ∃ entries, Entered affairs audience log entries := by
  induction affairs generalizing log audience with
  | nil => exact ⟨[], by rw [List.append_nil]; rfl, rfl, rfl, by rwa [List.append_nil]⟩
  | cons affair affairs ih =>
    obtain ⟨first, hfirst⟩ := h.entered_single affair
    obtain ⟨rest, hrest⟩ := ih hfirst.exact
    have hnoted : (audience.withLog log).undergoNoted affair =
        (audience.undergo affair).withLog (log ++ first) := hfirst.noted
    refine ⟨first ++ rest, ?_, ?_, ?_, ?_⟩
    · rw [List.foldl_cons, List.foldl_cons, hnoted, ← List.append_assoc]
      exact hrest.noted
    · rw [List.filterMap_append, hfirst.told, hrest.told, ← List.filterMap_append]
      rfl
    · rw [List.any_append, hfirst.closed, hrest.closed, ← List.any_append]
      rfl
    · rw [← List.append_assoc]
      exact hrest.exact

theorem entered_log (observers : O) (affairs : List (Affair M O)) :
    Entered affairs (.empty observers) [] (log observers affairs) := by
  obtain ⟨entries, h⟩ := (exact_empty (M := M) observers).entered affairs
  have hlog : log observers affairs = entries := congrArg (·.world.2) h.noted
  rw [hlog]
  exact h

/-! ## Active subscriptions -/

theorem isActive_iff {audience : Audience M O} {id : Nat} :
    audience.isActive id = true ↔ id ∈ audience.subscribers.map (·.id) := by
  simp [isActive]

/-- A subscription is active from its beginning to its end. -/
theorem Exact.isActive_iff {log before later : List (Occurrence M)} {audience : Audience M O}
    {id : Nat} (h : Exact log audience) (hlog : log = before ++ .joined id :: later) :
    audience.isActive id = true ↔ ∀ o ∈ later, o.ends id = false := by
  subst hlog
  rw [Audience.isActive_iff, h.registered, mem_registered_iff h.nodup]

/-- The active subscriptions are those that are registered. -/
theorem Exact.size_eq {log : List (Occurrence M)} {audience : Audience M O}
    (h : Exact log audience) :
    audience.size = ((List.range audience.nextId).filter audience.isActive).length := by
  have hids : (audience.subscribers.map (·.id)).Perm
      ((List.range audience.nextId).filter audience.isActive) := by
    rw [List.perm_ext_iff_of_nodup ?_ (List.nodup_range.filter _)]
    · intro id
      rw [List.mem_filter, Audience.isActive_iff, ← h.joined, h.registered]
      exact ⟨fun hid => ⟨(registered_sublist log).subset hid, hid⟩, And.right⟩
    · rw [h.registered]
      exact h.nodup.sublist (registered_sublist log)
  rw [← hids.length_eq, List.length_map]
  rfl

/-- Nobody is listed twice, and those who joined first come first. -/
theorem Exact.pairwise_registered {log before later : List (Occurrence M)}
    {audience : Audience M O} (h : Exact log audience) (hlog : log = before ++ later) :
    (Audience.registered before).Pairwise (· < ·) := by
  subst hlog
  have hjoined := h.joined
  rw [List.filterMap_append] at hjoined
  have hsub : (before.filterMap (·.joined?)).Sublist (List.range audience.nextId) :=
    hjoined ▸ List.sublist_append_left _ _
  exact List.pairwise_lt_range.sublist ((registered_sublist before).trans hsub)

end Audience

end Automat
