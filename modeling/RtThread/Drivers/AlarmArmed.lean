import Mathlib.Data.List.Nodup
import RtThread.Drivers.Alarm
import RtThread.Library.Transition

/-!
# The RTC is armed for the next alarm

Whoever is current was chosen by the comparisons of `rt_alarm_start` or by the search of
`alarm_update`.  Both are right for alarms that are started and not at the present second; the
search leaves out the alarm that is current when it runs.
-/

namespace RtThread.Drivers.Rtc

open Cyclic
open Transition

def wait (now : Nat) (a : Alarm) : Int := ahead (24 * 3600) now a.daysec

/-- While alarms are started, the current one is one of them, it is in the RTC, and no other
comes sooner. -/
def Armed (s : Container) : Prop :=
  (exists x, x ∈ s.alarms ∧ x.2.started = true) ->
    exists c a, s.current = some c ∧ (c, a) ∈ s.alarms ∧ a.started = true ∧
      s.programmed = some (c, a.wkalarm) ∧
      forall x, x ∈ s.alarms -> x.2.started = true -> wait s.now a ≤ wait s.now x.2

/-- The alarm is started, and still is when `alarm_update` has woken it up. -/
def stays (now : Tm) (a : Alarm) : Bool := a.started && !stopsItself now a

/-- An alarm that the search of `alarm_update` can find. -/
def Eligible (s : Container) (x : Nat × Alarm) : Prop :=
  s.current ≠ some x.1 ∧ stays s.clock x.2 = true ∧ x.2.daysec ≠ alarmMkdaysec s.clock

/-- Nothing stays started, or there is an alarm to find that comes no later than a current
one that stays started, or there is nothing to find and nothing to stop beside such a one.
-/
def Served (s : Container) : Prop :=
  (forall x, x ∈ s.alarms -> stays s.clock x.2 = false) ∨
  (exists x, x ∈ s.alarms ∧ Eligible s x ∧ forall y, y ∈ s.alarms ->
    s.current = some y.1 -> stays s.clock y.2 = true -> wait s.now x.2 ≤ wait s.now y.2) ∨
  (exists y, y ∈ s.alarms ∧ s.current = some y.1 ∧ stays s.clock y.2 = true) ∧
    forall x, x ∈ s.alarms -> ¬ Eligible s x ∧ stopsItself s.clock x.2 = false

/-- The comparisons of `rt_alarm_start` are about a current alarm that is started and not
due now; about a stopped one they may only let the new one in. -/
def Comparable (s : Container) (p : Nat) (a : Alarm) : Prop :=
  forall c old, s.current = some c -> s.find c = some old ->
    if old.started then
      old.daysec ≠ alarmMkdaysec s.clock ∨ a.daysec = alarmMkdaysec s.clock
    else c ≠ p ∧ comesFirst (alarmMkdaysec s.clock) old.daysec a.daysec = true

/-- A current alarm is stopped at a moment at which the next one can be found. -/
def Released (s : Container) (p : Nat) (a : Alarm) : Prop :=
  s.current = some p ->
    Served { s.setAlarm p { a with started := false } with current := none }

def Prudent (s : Container) : Act -> Prop
  | Act.create _ _ _ _ => True
  | Act.start p => forall a, s.find p = some a -> a.started = false -> (s.ready a).2 = true ->
      Comparable s p (s.ready a).1
  | Act.stop p | Act.modify p _ _ => forall a, s.find p = some a -> a.started = true ->
      Released s p a
  | Act.delete p => forall a, s.find p = some a -> Released s p a
  | Act.advance seconds => forall c a, s.current = some c -> s.find c = some a ->
      a.started = true -> seconds < wait s.now a ∨
        forall x, x ∈ s.alarms -> x.2.started = true -> x.2.daysec = a.daysec
  | Act.update seconds => Served { s with now := s.now + seconds }

/-!
## Times of day
-/

def InDay (t : Tm) : Prop :=
  (0 ≤ t.sec ∧ t.sec ≤ 59) ∧ (0 ≤ t.min ∧ t.min ≤ 59) ∧ 0 ≤ t.hour ∧
    t.hour ≤ 23

theorem InDay.mkdaysec {t : Tm} (h : InDay t) :
    0 ≤ alarmMkdaysec t ∧ alarmMkdaysec t < 24 * 3600 := by
  obtain ⟨hsec, hmin, hhour⟩ := h
  unfold alarmMkdaysec
  omega

theorem inDay_localtimeR (t : Nat) : InDay (localtimeR t) := by
  show ((0 : Int) ≤ (t % 86400 % 60 : Nat) ∧ ((t % 86400 % 60 : Nat) : Int) ≤ 59) ∧
    ((0 : Int) ≤ (t % 86400 / 60 % 60 : Nat) ∧ ((t % 86400 / 60 % 60 : Nat) : Int) ≤ 59) ∧
    (0 : Int) ≤ (t % 86400 / 60 / 60 : Nat) ∧ ((t % 86400 / 60 / 60 : Nat) : Int) ≤ 23
  omega

theorem mkdaysec_localtimeR (t : Nat) : alarmMkdaysec (localtimeR t) = (t : Int) % (24 * 3600) := by
  show ((t % 86400 % 60 : Nat) : Int) + (t % 86400 / 60 % 60 : Nat) * 60 +
    (t % 86400 / 60 / 60 : Nat) * 3600 = (t : Int) % (24 * 3600)
  omega

theorem setupDate_time (mode : Mode) (now setup : Tm) :
    (setupDate mode now setup).1.sec = setup.sec ∧
      (setupDate mode now setup).1.min = setup.min ∧
      (setupDate mode now setup).1.hour = setup.hour := by
  cases mode <;> exact ⟨rfl, rfl, rfl⟩

theorem InDay.setupTime {now : Tm} (h : InDay now) (wktime : Tm) :
    InDay (setupTime now wktime) := by
  obtain ⟨hsec, hmin, hhour⟩ := h
  unfold Rtc.setupTime
  refine ⟨?_, ?_, ?_⟩
  · simp only
    split <;> omega
  · simp only
    split <;> omega
  · simp only
    split <;> omega

theorem InDay.insure {t : Tm} (h : InDay t) : InDay (insure t) := by
  unfold Rtc.insure
  split
  · exact ⟨by simp only; omega, h.2⟩
  · exact h

theorem inDay_alarmSetup {now : Tm} (h : InDay now) (a : Alarm) (wktime : Tm) :
    InDay (alarmSetup now a wktime).1.wktime := by
  obtain ⟨hsec, hmin, hhour⟩ := setupDate_time a.mode now (setupTime now wktime)
  have hday : InDay (setupDate a.mode now (setupTime now wktime)).1 := by
    unfold InDay
    rw [hsec, hmin, hhour]
    exact h.setupTime wktime
  unfold alarmSetup
  simp only
  split
  · exact hday.insure
  · exact hday

theorem started_alarmSetup (now : Tm) (a : Alarm) (wktime : Tm) :
    (alarmSetup now a wktime).1.started = a.started := by
  unfold alarmSetup
  simp only
  split <;> rfl

theorem inited_alarmSetup {now : Tm} {a : Alarm} {wktime : Tm}
    (h : (alarmSetup now a wktime).2 = true) :
    (alarmSetup now a wktime).1.inited = true := by
  unfold alarmSetup at *
  simp only at *
  split at h
  · rename_i hok
    rw [if_pos hok]
  · cases h

/-!
## The alarms of the container
-/

/-- Every alarm has its own address, is set up before it is started, and set up to a time of
day. -/
structure Sound (alarms : List (Nat × Alarm)) : Prop where
  nodup : (alarms.map Prod.fst).Nodup
  inited : forall x, x ∈ alarms -> x.2.started = true -> x.2.inited = true
  inDay : forall x, x ∈ alarms -> x.2.inited = true -> InDay x.2.wktime

section Alarms

variable {s : Container} {p : Nat} {a b : Alarm} {x : Nat × Alarm}

theorem Sound.daysec {alarms : List (Nat × Alarm)} (h : Sound alarms) (hx : x ∈ alarms)
    (hstarted : x.2.started = true) : 0 ≤ x.2.daysec ∧ x.2.daysec < 24 * 3600 :=
  (h.inDay x hx (h.inited x hx hstarted)).mkdaysec

theorem Sound.unique {alarms : List (Nat × Alarm)} (h : Sound alarms) (ha : (p, a) ∈ alarms)
    (hb : (p, b) ∈ alarms) : a = b :=
  congrArg Prod.snd (List.inj_on_of_nodup_map h.nodup ha hb rfl)

theorem mem_of_find (h : s.find p = some a) : (p, a) ∈ s.alarms := by
  obtain ⟨before, rest, hsplit, -⟩ := List.lookup_eq_some_iff.1 h
  rw [hsplit]
  exact List.mem_append_right _ List.mem_cons_self

theorem Sound.find (h : Sound s.alarms) (ha : (p, a) ∈ s.alarms) : s.find p = some a := by
  cases hfind : s.find p with
  | none =>
    have hne := List.lookup_eq_none_iff.1 hfind (p, a) ha
    simp at hne
  | some b => rw [h.unique ha (mem_of_find hfind)]

theorem mem_setAlarm (hp : s.find p = some b) :
    x ∈ (s.setAlarm p a).alarms <-> x = (p, a) ∨ x ∈ s.alarms ∧ x.1 ≠ p := by
  constructor
  · intro hx
    obtain ⟨y, hy, rfl⟩ := List.mem_map.1 hx
    split
    · exact Or.inl rfl
    · rename_i hne
      exact Or.inr ⟨hy, hne⟩
  · rintro (rfl | ⟨hx, hne⟩)
    · exact List.mem_map.2 ⟨(p, b), mem_of_find hp, if_pos rfl⟩
    · exact List.mem_map.2 ⟨x, hx, if_neg hne⟩

theorem keys_setAlarm : (s.setAlarm p a).alarms.map Prod.fst = s.alarms.map Prod.fst := by
  show (s.alarms.map _).map Prod.fst = _
  rw [List.map_map]
  apply List.map_congr_left
  intro x _
  show (if x.1 = p then (p, a) else x).1 = x.1
  split
  · rename_i heq
    exact heq.symm
  · rfl

theorem Sound.setAlarm (h : Sound s.alarms) (hp : s.find p = some b)
    (hinited : a.started = true -> a.inited = true)
    (hday : a.inited = true -> InDay a.wktime) : Sound (s.setAlarm p a).alarms where
  nodup := by
    rw [keys_setAlarm]
    exact h.nodup
  inited x hx hstarted := by
    rcases (mem_setAlarm hp).1 hx with rfl | ⟨hx, -⟩
    · exact hinited hstarted
    · exact h.inited x hx hstarted
  inDay x hx hi := by
    rcases (mem_setAlarm hp).1 hx with rfl | ⟨hx, -⟩
    · exact hday hi
    · exact h.inDay x hx hi

theorem Sound.setAlarm_self (h : Sound s.alarms) (hp : s.find p = some a) : s.setAlarm p a = s := by
  have hmap : s.alarms.map (fun x => if x.1 = p then (p, a) else x) = s.alarms := by
    apply (List.map_congr_left ?_).trans (List.map_id s.alarms)
    rintro ⟨q, b⟩ hx
    show (if q = p then (p, a) else (q, b)) = (q, b)
    split
    · rename_i heq
      subst heq
      rw [h.unique (mem_of_find hp) hx]
    · rfl
  unfold Container.setAlarm
  rw [hmap]

theorem Sound.alarmSet {rtc : Wkalarm -> Wkalarm} (hrtc : forall w, rtc w = w)
    (h : Sound s.alarms) (hp : s.find p = some a) :
    s.alarmSet rtc p = { s with programmed := some (p, a.wkalarm) } := by
  unfold Container.alarmSet
  rw [hp]
  simp only
  rw [hrtc]
  split
  · have hset : Sound ({ s with programmed := some (p, a.wkalarm) } : Container).alarms := h
    exact hset.setAlarm_self hp
  · rfl

end Alarms

/-!
## What `alarm_update` does
-/

section Update

variable {s : Container} {p : Nat} {a : Alarm} {x : Nat × Alarm}

theorem started_alarmWakeup (now : Tm) (a : Alarm) : (alarmWakeup now a).started = stays now a := by
  unfold alarmWakeup stays
  split
  · rename_i hstop
    rw [hstop]
    exact (Bool.and_false _).symm
  · rename_i hstop
    rw [Bool.not_eq_true] at hstop
    rw [hstop]
    exact (Bool.and_true _).symm

theorem daysec_alarmWakeup (now : Tm) (a : Alarm) : (alarmWakeup now a).daysec = a.daysec := by
  unfold alarmWakeup
  split <;> rfl

theorem wait_alarmWakeup (t : Nat) (now : Tm) (a : Alarm) :
    wait t (alarmWakeup now a) = wait t a := by
  unfold wait
  rw [daysec_alarmWakeup]

theorem alarmWakeup_of_not_stopsItself {now : Tm} (h : stopsItself now a = false) :
    alarmWakeup now a = a := by
  unfold alarmWakeup
  rw [if_neg (by rw [h]; exact Bool.false_ne_true)]

theorem mem_wakeups (hx : x ∈ s.wakeups.alarms) :
    exists y, y ∈ s.alarms ∧ x = (y.1, alarmWakeup s.clock y.2) := by
  obtain ⟨y, hy, rfl⟩ := List.mem_map.1 hx
  exact ⟨y, hy, rfl⟩

theorem Sound.wakeups (h : Sound s.alarms) : Sound s.wakeups.alarms where
  nodup := by
    have hkeys : s.wakeups.alarms.map Prod.fst = s.alarms.map Prod.fst := List.map_map ..
    rw [hkeys]
    exact h.nodup
  inited x hx hstarted := by
    obtain ⟨y, hy, rfl⟩ := mem_wakeups hx
    simp only [alarmWakeup] at *
    split at hstarted
    · cases hstarted
    · rename_i hstop
      rw [if_neg hstop]
      exact h.inited y hy hstarted
  inDay x hx hi := by
    obtain ⟨y, hy, rfl⟩ := mem_wakeups hx
    have hinited : (alarmWakeup s.clock y.2).inited = y.2.inited := by
      unfold alarmWakeup
      split <;> rfl
    have htime : (alarmWakeup s.clock y.2).wktime = y.2.wktime := by
      unfold alarmWakeup
      split <;> rfl
    rw [hinited] at hi
    rw [htime]
    exact h.inDay y hy hi

theorem wakeups_of_not_stopsItself
    (h : forall x, x ∈ s.alarms -> stopsItself s.clock x.2 = false) :
    s.wakeups.alarms = s.alarms ∧ s.wakeups.programmed = s.programmed := by
  constructor
  · apply (List.map_congr_left ?_).trans (List.map_id s.alarms)
    intro x hx
    show (x.1, alarmWakeup s.clock x.2) = x
    rw [alarmWakeup_of_not_stopsItself (h x hx)]
  · show s.alarms.foldl _ s.programmed = s.programmed
    have hfold : forall (l : List (Nat × Alarm)) (w : Option (Nat × Wkalarm)),
        (forall x, x ∈ l -> stopsItself s.clock x.2 = false) ->
        l.foldl (fun w x => if stopsItself s.clock x.2 then
          some (x.1, (alarmWakeup s.clock x.2).wkalarm) else w) w = w := by
      intro l
      induction l with
      | nil => intro w _; rfl
      | cons x l ih =>
        intro w hl
        rw [List.foldl_cons, if_neg (by rw [hl x List.mem_cons_self]; exact Bool.false_ne_true)]
        exact ih w fun y hy => hl y (List.mem_cons_of_mem x hy)
    exact hfold s.alarms s.programmed h

def visited (s : Container) : List (Int × Nat) :=
  (s.alarms.filter fun x => x.2.started ∧ s.current ≠ some x.1).map fun x => (x.2.daysec, x.1)

theorem mem_visited {y : Int × Nat} : y ∈ visited s <->
    exists a, (y.2, a) ∈ s.alarms ∧ a.started = true ∧ s.current ≠ some y.2 ∧
      a.daysec = y.1 := by
  constructor
  · intro hy
    obtain ⟨x, hx, rfl⟩ := List.mem_map.1 hy
    obtain ⟨hmem, hcond⟩ := List.mem_filter.1 hx
    obtain ⟨hstarted, hcur⟩ := of_decide_eq_true hcond
    exact ⟨x.2, hmem, hstarted, hcur, rfl⟩
  · rintro ⟨a, hmem, hstarted, hcur, hday⟩
    refine List.mem_map.2 ⟨(y.2, a), List.mem_filter.2 ⟨hmem, ?_⟩, ?_⟩
    · exact decide_eq_true ⟨hstarted, hcur⟩
    · exact Prod.ext hday rfl

theorem search_eq : s.search = ((visited s).foldl (Search.visit (alarmMkdaysec s.clock))
      (Search.start (24 * 3600))).result (24 * 3600) := by
  unfold Container.search visited
  rw [List.foldl_map, List.foldl_filter]
  simp only [decide_eq_true_eq]
  rfl

theorem visited_of (s : Container) : Search.Of (24 * 3600) (alarmMkdaysec s.clock) (visited s)
      ((visited s).foldl (Search.visit (alarmMkdaysec s.clock)) (Search.start (24 * 3600))) :=
  (Search.Of.start (24 * 3600) (alarmMkdaysec s.clock)).foldl (visited s)

theorem Sound.visited_range (h : Sound s.alarms) {y : Int × Nat} (hy : y ∈ visited s) :
    0 ≤ y.1 ∧ y.1 < 24 * 3600 := by
  obtain ⟨a, hmem, hstarted, -, hday⟩ := mem_visited.1 hy
  rw [← hday]
  exact h.daysec hmem hstarted

theorem wait_eq (t : Nat) (a : Alarm) :
    wait t a = ahead (24 * 3600) (alarmMkdaysec (localtimeR t)) a.daysec := by
  rw [mkdaysec_localtimeR, ahead_emod]
  rfl

theorem Sound.search_eq_some (h : Sound s.alarms) (hp : s.search = some p) :
    exists a, (p, a) ∈ s.alarms ∧ a.started = true ∧ s.current ≠ some p ∧
      a.daysec ≠ alarmMkdaysec s.clock ∧
      forall x, x ∈ s.alarms -> x.2.started = true -> s.current ≠ some x.1 ->
        wait s.now a ≤ wait s.now x.2 := by
  have hnow := (inDay_localtimeR s.now).mkdaysec
  rw [search_eq] at hp
  obtain ⟨t, hmem, hne, hleast⟩ := (visited_of s).result_eq_some hnow.1 hnow.2
    (fun y hy => h.visited_range hy) hp
  obtain ⟨a, ha, hstarted, hcur, rfl⟩ := mem_visited.1 hmem
  refine ⟨a, ha, hstarted, hcur, hne, ?_⟩
  intro x hx hxstarted hxcur
  rw [wait_eq, wait_eq]
  exact hleast (x.2.daysec, x.1) (mem_visited.2 ⟨x.2, hx, hxstarted, hxcur, rfl⟩)

theorem Sound.search_eq_none (h : Sound s.alarms) (hnone : s.search = none)
    (hx : x ∈ s.alarms) (hstarted : x.2.started = true) (hcur : s.current ≠ some x.1) :
    x.2.daysec = alarmMkdaysec s.clock := by
  have hnow := (inDay_localtimeR s.now).mkdaysec
  have hmem : (x.2.daysec, x.1) ∈ visited s := mem_visited.2 ⟨x.2, hx, hstarted, hcur, rfl⟩
  rw [search_eq] at hnone
  exact (visited_of s).result_eq_none hnow.1 (fun y hy => (h.visited_range hy).2) hnone hmem

theorem alarmUpdate_cases {rtc : Wkalarm -> Wkalarm} (hrtc : forall w, rtc w = w)
    (h : Sound s.alarms) :
    (exists p a, s.wakeups.search = some p ∧ (p, a) ∈ s.wakeups.alarms ∧ s.alarmUpdate rtc =
        { s.wakeups with programmed := some (p, a.wkalarm), current := some p }) ∨
    s.wakeups.search = none ∧ s.alarmUpdate rtc = s.wakeups ∨
    s.alarms = [] ∧ s.alarmUpdate rtc = s := by
  unfold Container.alarmUpdate
  split
  · rename_i hempty
    exact Or.inr (Or.inr ⟨List.isEmpty_iff.1 hempty, rfl⟩)
  · cases hsearch : s.wakeups.search with
    | none => exact Or.inr (Or.inl ⟨rfl, rfl⟩)
    | some p =>
      obtain ⟨a, ha, -⟩ := h.wakeups.search_eq_some hsearch
      refine Or.inl ⟨p, a, rfl, ha, ?_⟩
      simp only
      rw [h.wakeups.alarmSet hrtc (h.wakeups.find ha)]

theorem idle_alarmUpdate {rtc : Wkalarm -> Wkalarm} (hrtc : forall w, rtc w = w)
    (h : Sound s.alarms) (ha : (p, a) ∈ s.alarms) (hidle : a.started = false) :
    exists b, (p, b) ∈ (s.alarmUpdate rtc).alarms ∧ b.started = false := by
  have hwakeups : exists b, (p, b) ∈ s.wakeups.alarms ∧ b.started = false := by
    refine ⟨alarmWakeup s.clock a, List.mem_map.2 ⟨(p, a), ha, rfl⟩, ?_⟩
    rw [started_alarmWakeup, stays, hidle]
    rfl
  rcases alarmUpdate_cases hrtc h with ⟨q, b, -, -, heq⟩ | ⟨-, heq⟩ | ⟨-, heq⟩
  · rw [heq]
    exact hwakeups
  · rw [heq]
    exact hwakeups
  · rw [heq]
    exact ⟨a, ha, hidle⟩

theorem Sound.alarmUpdate {rtc : Wkalarm -> Wkalarm} (hrtc : forall w, rtc w = w)
    (h : Sound s.alarms) : Sound (s.alarmUpdate rtc).alarms := by
  rcases alarmUpdate_cases hrtc h with ⟨p, a, -, -, heq⟩ | ⟨-, heq⟩ | ⟨-, heq⟩
  · rw [heq]
    exact h.wakeups
  · rw [heq]
    exact h.wakeups
  · rw [heq]
    exact h

theorem mem_wakeups_of_stays (hx : x ∈ s.alarms) (hstays : stays s.clock x.2 = true) :
    (x.1, alarmWakeup s.clock x.2) ∈ s.wakeups.alarms ∧
      (alarmWakeup s.clock x.2).started = true :=
  ⟨List.mem_map_of_mem hx, by rw [started_alarmWakeup, hstays]⟩

theorem Served.congr {s' : Container} (h : Served s) (halarms : s'.alarms = s.alarms)
    (hcur : s'.current = s.current) (hnow : s'.now = s.now) : Served s' := by
  unfold Served Eligible Container.clock at *
  rw [halarms, hcur, hnow]
  exact h

theorem Sound.alarmUpdate_armed {rtc : Wkalarm -> Wkalarm} (hrtc : forall w, rtc w = w)
    (h : Sound s.alarms) (hserved : Served s)
    (hprogrammed : forall c a, s.current = some c -> (c, a) ∈ s.alarms -> a.started = true ->
      s.programmed = some (c, a.wkalarm)) : Armed (s.alarmUpdate rtc) := by
  rcases alarmUpdate_cases hrtc h with ⟨p, a, hsearch, ha, heq⟩ | ⟨hnone, heq⟩ |
    ⟨hempty, heq⟩
  · -- an alarm was found; only the former current one may come sooner
    obtain ⟨a', ha', hstarted, hcur, hday, hleast⟩ := h.wakeups.search_eq_some hsearch
    obtain rfl := h.wakeups.unique ha ha'
    rw [heq]
    intro _
    refine ⟨p, a, rfl, ha, hstarted, rfl, ?_⟩
    intro x hx hxstarted
    by_cases hxcur : s.current = some x.1
    · obtain ⟨y, hy, rfl⟩ := mem_wakeups hx
      rw [started_alarmWakeup] at hxstarted
      rcases hserved with hnobody | ⟨e, he, ⟨hecur, hestays, -⟩, hsooner⟩ | ⟨-, hnobody⟩
      · rw [hnobody y hy] at hxstarted
        cases hxstarted
      · obtain ⟨hmem, hestarted⟩ := mem_wakeups_of_stays he hestays
        have hle := hleast _ hmem hestarted hecur
        have hle' := hsooner y hy hxcur hxstarted
        rw [wait_alarmWakeup] at hle ⊢
        exact Int.le_trans hle hle'
      · obtain ⟨z, hz, hzeq⟩ := mem_wakeups ha
        cases hzeq
        rw [started_alarmWakeup] at hstarted
        rw [daysec_alarmWakeup] at hday
        exact absurd ⟨hcur, hstarted, hday⟩ (hnobody z hz).1
    · exact hleast x hx hxstarted hxcur
  · rw [heq]
    rintro ⟨x, hx, hxstarted⟩
    rcases hserved with hnobody | ⟨e, he, ⟨hecur, hestays, heday⟩, -⟩ |
      ⟨⟨y, hy, hycur, hystays⟩, hrest⟩
    · obtain ⟨y, hy, rfl⟩ := mem_wakeups hx
      rw [started_alarmWakeup, hnobody y hy] at hxstarted
      cases hxstarted
    · obtain ⟨hmem, hestarted⟩ := mem_wakeups_of_stays he hestays
      have hnow := h.wakeups.search_eq_none hnone hmem hestarted hecur
      rw [daysec_alarmWakeup] at hnow
      exact absurd hnow heday
    · -- nothing was found or stopped beside the current alarm
      obtain ⟨halarms, hprog⟩ := wakeups_of_not_stopsItself fun x hx => (hrest x hx).2
      have hystarted : y.2.started = true := (Bool.and_eq_true_iff.1 hystays).1
      refine ⟨y.1, y.2, hycur, by rw [halarms]; exact hy, hystarted, ?_, ?_⟩
      · rw [hprog]
        exact hprogrammed y.1 y.2 hycur hy hystarted
      · intro z hz hzstarted
        by_cases hzcur : s.current = some z.1
        · rw [halarms] at hz
          have hkey : y.1 = z.1 := Option.some.inj (hycur.symm.trans hzcur)
          have hzy : y.2 = z.2 := h.unique hy (by rw [hkey]; exact hz)
          rw [hzy]
        · have hnow := h.wakeups.search_eq_none hnone hz hzstarted hzcur
          rw [wait_eq s.wakeups.now z.2, hnow]
          exact (ahead_le (by decide)).trans (le_of_eq ahead_self.symm)
  · rw [heq]
    rintro ⟨x, hx, -⟩
    rw [hempty] at hx
    cases hx

end Update

/-!
## The steps keep the RTC armed
-/

section Steps

variable {s s' : Container} {p : Nat} {a b : Alarm} {rtc : Wkalarm -> Wkalarm}

theorem Armed.programmed (h : Armed s) (hs : Sound s.alarms) {c : Nat}
    (hcur : s.current = some c) (hc : (c, a) ∈ s.alarms) (hstarted : a.started = true) :
    s.programmed = some (c, a.wkalarm) ∧
      forall x, x ∈ s.alarms -> x.2.started = true -> wait s.now a ≤ wait s.now x.2 := by
  obtain ⟨c', a', hcur', hc', -, hprog, hleast⟩ := h ⟨_, hc, hstarted⟩
  obtain rfl : c = c' := Option.some.inj (hcur.symm.trans hcur')
  obtain rfl := hs.unique hc hc'
  exact ⟨hprog, hleast⟩

theorem Armed.setIdle (h : Armed s) (hs : Sound s.alarms) (hp : s.find p = some a)
    (hidle : s.current ≠ some p ∨ a.started = false) (hb : b.started = false) :
    Armed (s.setAlarm p b) := by
  rintro ⟨x, hx, hxstarted⟩
  have hold : forall y, y ∈ (s.setAlarm p b).alarms -> y.2.started = true -> y ∈ s.alarms := by
    intro y hy hystarted
    rcases (mem_setAlarm hp).1 hy with rfl | ⟨hy, -⟩
    · rw [hb] at hystarted
      cases hystarted
    · exact hy
  obtain ⟨c, ac, hcur, hc, hcstarted, hprog, hleast⟩ :=
    h ⟨x, hold x hx hxstarted, hxstarted⟩
  have hne : c ≠ p := by
    rintro rfl
    rcases hidle with hidle | hidle
    · exact hidle hcur
    · rw [hs.unique (mem_of_find hp) hc, hcstarted] at hidle
      cases hidle
  refine ⟨c, ac, hcur, (mem_setAlarm hp).2 (Or.inr ⟨hc, hne⟩), hcstarted, hprog, ?_⟩
  intro y hy hystarted
  exact hleast y (hold y hy hystarted) hystarted

theorem wait_of_comesFirst {t : Nat} (ha : 0 ≤ a.daysec ∧ a.daysec < 24 * 3600)
    (hb : 0 ≤ b.daysec ∧ b.daysec < 24 * 3600) :
    (comesFirst (alarmMkdaysec (localtimeR t)) b.daysec a.daysec = true ->
      wait t a ≤ wait t b) ∧
    (comesFirst (alarmMkdaysec (localtimeR t)) b.daysec a.daysec = false ->
      b.daysec ≠ alarmMkdaysec (localtimeR t) ∨ a.daysec = alarmMkdaysec (localtimeR t) ->
        wait t b ≤ wait t a) := by
  obtain ⟨hlow, hhigh⟩ := (inDay_localtimeR t).mkdaysec
  rw [wait_eq, wait_eq]
  generalize alarmMkdaysec (localtimeR t) = now at *
  have hahead : forall d : Int, 0 ≤ d -> d < 24 * 3600 ->
      ahead (24 * 3600) now d = if now < d then d - now else d - now + 24 * 3600 := by
    intro d hd hd'
    split
    · rename_i hlt
      exact ahead_of_lt hlow hd' hlt
    · rename_i hge
      exact ahead_of_le hd hhigh (Int.not_lt.1 hge)
  rw [hahead _ ha.1 ha.2, hahead _ hb.1 hb.2]
  simp only [comesFirst, decide_eq_true_eq, decide_eq_false_iff_not]
  constructor
  · intro hfirst
    split <;> split <;> omega
  · intro hfirst hdue
    split <;> split <;> omega

theorem Armed.create (h : Armed s) (mode : Mode) (callback : Bool) (wktime : Tm) :
    Armed (s.rtAlarmCreate p mode callback wktime) := by
  have hold : forall y, y ∈ (s.rtAlarmCreate p mode callback wktime).alarms ->
      y.2.started = true -> y ∈ s.alarms := by
    intro y hy hystarted
    rcases List.mem_cons.1 hy with rfl | hy
    · cases hystarted
    · exact hy
  rintro ⟨x, hx, hxstarted⟩
  obtain ⟨c, ac, hcur, hc, hcstarted, hprog, hleast⟩ :=
    h ⟨x, hold x hx hxstarted, hxstarted⟩
  refine ⟨c, ac, hcur, List.mem_cons_of_mem _ hc, hcstarted, hprog, ?_⟩
  intro y hy hystarted
  exact hleast y (hold y hy hystarted) hystarted

theorem Sound.create (h : Sound s.alarms) (hp : s.find p = none) (mode : Mode)
    (callback : Bool) (wktime : Tm) :
    Sound (s.rtAlarmCreate p mode callback wktime).alarms where
  nodup := by
    apply List.nodup_cons.2 ⟨?_, h.nodup⟩
    intro hmem
    obtain ⟨x, hx, hkey⟩ := List.mem_map.1 hmem
    have hne := List.lookup_eq_none_iff.1 hp x hx
    simp [hkey] at hne
  inited x hx hstarted := by
    rcases List.mem_cons.1 hx with rfl | hx
    · cases hstarted
    · exact h.inited x hx hstarted
  inDay x hx hi := by
    rcases List.mem_cons.1 hx with rfl | hx
    · cases hi
    · exact h.inDay x hx hi

theorem Armed.advance (h : Armed s) (hs : Sound s.alarms) {seconds : Nat}
    (hok : Prudent s (Act.advance seconds)) : Armed { s with now := s.now + seconds } := by
  intro hex
  obtain ⟨c, a, hcur, hc, hstarted, hprog, hleast⟩ := h hex
  refine ⟨c, a, hcur, hc, hstarted, hprog, ?_⟩
  intro x hx hxstarted
  show ahead (24 * 3600) ((s.now + seconds : Nat) : Int) _ ≤
    ahead (24 * 3600) ((s.now + seconds : Nat) : Int) _
  rcases hok c a hcur (hs.find hc) hstarted with hlt | hsame
  · have hle := hleast x hx hxstarted
    unfold wait at hle hlt
    rw [Int.natCast_add, ahead_add (by decide) (Int.natCast_nonneg _) hlt,
      ahead_add (by decide) (Int.natCast_nonneg _) (Int.lt_of_lt_of_le hlt hle)]
    omega
  · rw [hsame x hx hxstarted]

theorem ready_spec (hs : Sound s.alarms) (hp : s.find p = some a) :
    (s.ready a).1.started = a.started ∧ InDay (s.ready a).1.wktime ∧
      ((s.ready a).2 = true -> (s.ready a).1.inited = true) := by
  unfold Container.ready
  split
  · rename_i hinited
    exact ⟨rfl, hs.inDay _ (mem_of_find hp) hinited, fun _ => hinited⟩
  · exact ⟨started_alarmSetup .., inDay_alarmSetup (inDay_localtimeR s.now) ..,
      inited_alarmSetup⟩

theorem Armed.takeOver (h : Armed s) (hs : Sound s.alarms) (hp : s.find p = some a)
    (hidle : a.started = false) (hb : b.started = true) (hday : InDay b.wktime)
    (hset : Sound (s.setAlarm p b).alarms) (htake : (s.setAlarm p b).takesOver b = true) :
    Armed { s.setAlarm p b with programmed := some (p, b.wkalarm), current := some p } := by
  intro _
  refine ⟨p, b, rfl, (mem_setAlarm hp).2 (Or.inl rfl), hb, rfl, ?_⟩
  intro x hx hxstarted
  rcases (mem_setAlarm hp).1 hx with rfl | ⟨hx, hne⟩
  · exact Int.le_refl _
  · obtain ⟨c, old, hcur, hc, hcstarted, -, hleast⟩ := h ⟨x, hx, hxstarted⟩
    have hcp : c ≠ p := by
      rintro rfl
      rw [hs.unique (mem_of_find hp) hc, hcstarted] at hidle
      cases hidle
    have hfind : (s.setAlarm p b).find c = some old :=
      hset.find ((mem_setAlarm hp).2 (Or.inr ⟨hc, hcp⟩))
    have hcurrent : (s.setAlarm p b).current = some c := hcur
    unfold Container.takesOver at htake
    rw [hcurrent] at htake
    simp only [hfind] at htake
    have hle : wait s.now b ≤ wait s.now old :=
      (wait_of_comesFirst hday.mkdaysec (hs.daysec hc hcstarted)).1 htake
    exact Int.le_trans hle (hleast x hx hxstarted)

theorem Armed.join (h : Armed s) (hs : Sound s.alarms) (hp : s.find p = some a)
    (hidle : a.started = false) (hday : InDay b.wktime)
    (hok : Comparable s p b) (htake : (s.setAlarm p b).takesOver b = false) :
    Armed (s.setAlarm p b) := by
  unfold Container.takesOver at htake
  split at htake
  · cases htake
  · rename_i c hcur
    split at htake
    · cases htake
    · rename_i old hfind
      have hcurrent : s.current = some c := hcur
      by_cases hcp : c = p
      · -- the alarm that is started again is the current one
        subst hcp
        have hcond := hok c a hcurrent hp
        rw [if_neg (by rw [hidle]; exact Bool.false_ne_true)] at hcond
        exact absurd rfl hcond.1
      · have hc : (c, old) ∈ s.alarms := by
          rcases (mem_setAlarm hp).1 (mem_of_find hfind) with heq | ⟨hc, -⟩
          · exact absurd (congrArg Prod.fst heq) hcp
          · exact hc
        have hcond := hok c old hcurrent (hs.find hc)
        split at hcond
        · rename_i hstarted
          obtain ⟨hprog, hleast⟩ := h.programmed hs hcurrent hc hstarted
          intro _
          refine ⟨c, old, hcur, (mem_setAlarm hp).2 (Or.inr ⟨hc, hcp⟩), hstarted, hprog, ?_⟩
          intro x hx hxstarted
          rcases (mem_setAlarm hp).1 hx with rfl | ⟨hx, -⟩
          · exact (wait_of_comesFirst hday.mkdaysec (hs.daysec hc hstarted)).2 htake hcond
          · exact hleast x hx hxstarted
        · have hfirst : comesFirst (alarmMkdaysec s.clock) old.daysec b.daysec = false := htake
          rw [hcond.2] at hfirst
          cases hfirst

structure Kept (s : Container) : Prop where
  sound : Sound s.alarms
  armed : Armed s

theorem Kept.start (hrtc : forall w, rtc w = w) (h : Kept s) (hp : s.find p = some a)
    (hok : Prudent s (Act.start p)) : Kept (s.rtAlarmStart rtc p a).1 := by
  obtain ⟨hstarted, hday, hinited⟩ := ready_spec h.sound hp
  unfold Container.rtAlarmStart
  simp only
  split
  · rename_i hskip
    cases hrun : a.started with
    | true =>
      -- a started alarm is set up already
      have hready : (s.ready a).1 = a := by
        unfold Container.ready
        rw [if_pos (h.sound.inited _ (mem_of_find hp) hrun)]
      rw [hready, h.sound.setAlarm_self hp]
      exact h
    | false =>
      have hb : (s.ready a).1.started = false := hstarted.trans hrun
      refine ⟨h.sound.setAlarm hp ?_ fun _ => hday, ?_⟩
      · rw [hb]
        exact nofun
      · exact h.armed.setIdle h.sound hp (Or.inr hrun) hb
  · rename_i hskip
    obtain ⟨hready, hrun⟩ : (s.ready a).2 = true ∧ (s.ready a).1.started = false := by
      simpa using hskip
    have hidle : a.started = false := hstarted.symm.trans hrun
    have hset : Sound (s.setAlarm p { (s.ready a).1 with started := true }).alarms :=
      h.sound.setAlarm hp (fun _ => hinited hready) fun _ => hday
    have hcomparable : Comparable s p { (s.ready a).1 with started := true } :=
      hok a hp hidle hready
    split
    · rename_i htake
      have hfind : (s.setAlarm p { (s.ready a).1 with started := true }).find p = some _ :=
        hset.find ((mem_setAlarm hp).2 (Or.inl rfl))
      rw [hset.alarmSet hrtc hfind]
      exact ⟨hset, h.armed.takeOver h.sound hp hidle rfl hday hset htake⟩
    · rename_i htake
      rw [Bool.not_eq_true] at htake
      exact ⟨hset, h.armed.join h.sound hp hidle hday hcomparable htake⟩

theorem Kept.giveUp (hrtc : forall w, rtc w = w) (h : Kept s) (hp : s.find p = some a)
    (hok : Released s p a) :
    Kept ((s.setAlarm p { a with started := false }).giveUp rtc p).1 ∧
      exists b, (p, b) ∈ ((s.setAlarm p { a with started := false }).giveUp rtc p).1.alarms ∧
        b.started = false := by
  have hset : Sound (s.setAlarm p { a with started := false }).alarms :=
    h.sound.setAlarm hp nofun (h.sound.inDay _ (mem_of_find hp))
  have hmem : (p, { a with started := false }) ∈
      (s.setAlarm p { a with started := false }).alarms := (mem_setAlarm hp).2 (Or.inl rfl)
  unfold Container.giveUp
  split
  · rename_i hcur
    rw [hset.alarmSet hrtc (hset.find hmem)]
    have hserved : Served { s.setAlarm p { a with started := false } with
        programmed := some (p, Alarm.wkalarm { a with started := false }), current := none } :=
      (hok hcur).congr rfl rfl rfl
    refine ⟨⟨Sound.alarmUpdate hrtc hset, Sound.alarmUpdate_armed hrtc hset hserved ?_⟩, ?_⟩
    · intro c b hcur'
      cases hcur'
    · exact idle_alarmUpdate hrtc hset hmem rfl
  · rename_i hcur
    exact ⟨⟨hset, h.armed.setIdle h.sound hp (Or.inl hcur) rfl⟩, _, hmem, rfl⟩

theorem Kept.stop (hrtc : forall w, rtc w = w) (h : Kept s) (hp : s.find p = some a)
    (hok : a.started = true -> Released s p a) :
    Kept (s.rtAlarmStop rtc p a).1 ∧
      exists b, (p, b) ∈ (s.rtAlarmStop rtc p a).1.alarms ∧ b.started = false := by
  unfold Container.rtAlarmStop
  split
  · rename_i hstarted
    exact h.giveUp hrtc hp (hok hstarted)
  · rename_i hstarted
    rw [Bool.not_eq_true] at hstarted
    exact ⟨h, a, mem_of_find hp, hstarted⟩

theorem Kept.delete (hrtc : forall w, rtc w = w) (h : Kept s) (hp : s.find p = some a)
    (hok : Released s p a) : Kept (s.rtAlarmDelete rtc p a).1 := by
  obtain ⟨hkept, b, hb, hidle⟩ := h.giveUp hrtc hp hok
  unfold Container.rtAlarmDelete
  generalize (s.setAlarm p { a with started := false }).giveUp rtc p = r at *
  have hsub : forall x, x ∈ r.1.alarms.filter (fun x => x.1 ≠ p) -> x ∈ r.1.alarms :=
    fun x hx => (List.mem_filter.1 hx).1
  refine ⟨⟨?_, ?_, ?_⟩, ?_⟩
  · exact (List.filter_sublist.map Prod.fst).nodup hkept.sound.nodup
  · exact fun x hx => hkept.sound.inited x (hsub x hx)
  · exact fun x hx => hkept.sound.inDay x (hsub x hx)
  · rintro ⟨x, hx, hxstarted⟩
    obtain ⟨c, ac, hcur, hc, hcstarted, hprog, hleast⟩ :=
      hkept.armed ⟨x, hsub x hx, hxstarted⟩
    have hne : c ≠ p := by
      rintro rfl
      rw [hkept.sound.unique hb hc, hcstarted] at hidle
      cases hidle
    refine ⟨c, ac, hcur, List.mem_filter.2 ⟨hc, decide_eq_true hne⟩, hcstarted, hprog, ?_⟩
    intro y hy hystarted
    exact hleast y (hsub y hy) hystarted

theorem Kept.modify (hrtc : forall w, rtc w = w) (h : Kept s) (hp : s.find p = some a)
    (hok : a.started = true -> Released s p a) (mode : Mode) (wktime : Tm) :
    Kept (s.rtAlarmModify rtc p a mode wktime).1 := by
  obtain ⟨hkept, b, hb, hidle⟩ := h.stop hrtc hp hok
  unfold Container.rtAlarmModify
  generalize (s.rtAlarmStop rtc p a).1 = r at *
  have hstarted :
    (alarmSetup r.clock ⟨mode, false, false, a.callback, wktime⟩ wktime).1.started =
      false := started_alarmSetup ..
  have hfind := hkept.sound.find hb
  refine ⟨hkept.sound.setAlarm hfind ?_ ?_, ?_⟩
  · rw [hstarted]
    exact nofun
  · exact fun _ => inDay_alarmSetup (inDay_localtimeR r.now) ..
  · exact hkept.armed.setIdle hkept.sound hfind (Or.inr hidle) hstarted

theorem Kept.update (hrtc : forall w, rtc w = w) (h : Kept s) {seconds : Nat}
    (hok : Prudent s (Act.update seconds)) :
    Kept (Container.alarmUpdate rtc { s with now := s.now + seconds }) := by
  have hs : Sound ({ s with now := s.now + seconds } : Container).alarms := h.sound
  refine ⟨hs.alarmUpdate hrtc, hs.alarmUpdate_armed hrtc hok ?_⟩
  intro c a hcur hc hstarted
  exact (h.armed.programmed h.sound hcur hc hstarted).1

theorem step_kept {x : Act} (hrtc : forall w, rtc w = w) (h : Kept s) (hok : Prudent s x)
    (hs : step rtc s x = some s') : Kept s' := by
  cases x with
  | create p mode callback wktime =>
    simp only [step] at hs
    split at hs
    · rename_i hp
      cases hs
      exact ⟨h.sound.create hp mode callback wktime, h.armed.create mode callback wktime⟩
    · cases hs
  | start p =>
    obtain ⟨a, hp, rfl⟩ := Option.map_eq_some_iff.1 hs
    exact h.start hrtc hp hok
  | stop p =>
    obtain ⟨a, hp, rfl⟩ := Option.map_eq_some_iff.1 hs
    exact (h.stop hrtc hp (hok a hp)).1
  | delete p =>
    obtain ⟨a, hp, rfl⟩ := Option.map_eq_some_iff.1 hs
    exact h.delete hrtc hp (hok a hp)
  | modify p mode wktime =>
    obtain ⟨a, hp, rfl⟩ := Option.map_eq_some_iff.1 hs
    exact h.modify hrtc hp (hok a hp) mode wktime
  | advance seconds =>
    cases hs
    exact ⟨h.sound, h.armed.advance h.sound hok⟩
  | update seconds =>
    cases hs
    exact h.update hrtc hok

end Steps

/-!
## Every run
-/

theorem init_kept (now : Nat) : Kept (init now) where
  sound := ⟨List.nodup_nil, fun _ hx => absurd hx List.not_mem_nil,
    fun _ hx => absurd hx List.not_mem_nil⟩
  armed := by
    rintro ⟨x, hx, -⟩
    exact absurd hx List.not_mem_nil

theorem rtc_armed {rtc : Wkalarm -> Wkalarm} (hrtc : forall w, rtc w = w) {now : Nat}
    {labels : List Act} {s : Container}
    (hrun : Run (Guarded Prudent (Graph (step rtc))) (init now) labels s) : Armed s := by
  have h : Kept s := by
    apply hrun.invariant Kept (init_kept now)
    intro s a s' h hs
    exact step_kept hrtc h hs.1 hs.2
  exact h.armed

def firstDay (sec : Int) : Tm := ⟨sec, 0, 0, 1, 0, 70, 4⟩

def dailyAt (sec : Int) : Alarm := ⟨Mode.daily, true, true, true, firstDay sec⟩

/-- Two daily alarms; at the time of the first one the service sets the second. -/
theorem rtc_armed_two_alarms :
    exists s, Run (Guarded Prudent (Graph (step id))) (init 0)
        [Act.create 1 Mode.daily true (firstDay 10), Act.start 1,
          Act.create 2 Mode.daily true (firstDay 20), Act.start 2, Act.update 10] s ∧
      s.current = some 2 ∧ Armed s := by
  have hcreate : Run (Guarded Prudent (Graph (step id))) (init 0)
      [Act.create 1 Mode.daily true (firstDay 10)]
      ⟨[(1, ⟨Mode.daily, false, false, true, firstDay 10⟩)], none, none, [], 0⟩ :=
    Run.snoc Run.nil ⟨trivial, rfl⟩
  have hstart : Run (Guarded Prudent (Graph (step id))) (init 0)
      [Act.create 1 Mode.daily true (firstDay 10), Act.start 1]
      ⟨[(1, dailyAt 10)], some 1, some (1, (dailyAt 10).wkalarm), [], 0⟩ := by
    refine Run.snoc hcreate ⟨?_, rfl⟩
    intro a _ _ _ c old hcur
    cases hcur
  have hcreate' : Run (Guarded Prudent (Graph (step id))) (init 0)
      [Act.create 1 Mode.daily true (firstDay 10), Act.start 1,
        Act.create 2 Mode.daily true (firstDay 20)]
      ⟨[(2, ⟨Mode.daily, false, false, true, firstDay 20⟩), (1, dailyAt 10)], some 1,
        some (1, (dailyAt 10).wkalarm), [], 0⟩ := Run.snoc hstart ⟨trivial, rfl⟩
  have hstart' : Run (Guarded Prudent (Graph (step id))) (init 0)
      [Act.create 1 Mode.daily true (firstDay 10), Act.start 1,
        Act.create 2 Mode.daily true (firstDay 20), Act.start 2]
      ⟨[(2, dailyAt 20), (1, dailyAt 10)], some 1, some (1, (dailyAt 10).wkalarm), [], 0⟩ := by
    refine Run.snoc hcreate' ⟨?_, rfl⟩
    intro a _ _ _ c old hcur hold
    cases hcur
    cases hold
    exact Or.inl (by decide)
  have hrun : Run (Guarded Prudent (Graph (step id))) (init 0)
      [Act.create 1 Mode.daily true (firstDay 10), Act.start 1,
        Act.create 2 Mode.daily true (firstDay 20), Act.start 2, Act.update 10]
      ⟨[(2, dailyAt 20), (1, dailyAt 10)], some 2, some (2, (dailyAt 20).wkalarm), [1],
        10⟩ := by
    refine Run.snoc hstart' ⟨Or.inr (Or.inl ?_), rfl⟩
    refine ⟨(2, dailyAt 20), List.mem_cons_self, ⟨by decide, by decide, by decide⟩, ?_⟩
    intro y hy hcur _
    rcases List.mem_cons.1 hy with rfl | hy
    · exact Int.le_refl _
    · rw [List.mem_singleton.1 hy]
      decide
  exact ⟨_, hrun, rfl, rtc_armed (fun _ => rfl) hrun⟩

/-- A one-shot alarm fires and stays current; an alarm that is started then is not set. -/
theorem start_behind_fired_alarm :
    exists s, Run (Graph (step id)) (init 0)
        [Act.create 1 Mode.oneshot true (firstDay 10), Act.start 1, Act.update 10,
          Act.create 2 Mode.daily true (firstDay 20), Act.start 2] s ∧
      (2, dailyAt 20) ∈ s.alarms ∧ s.current = some 1 ∧
      (1, ⟨Mode.oneshot, true, false, true, firstDay 10⟩) ∈ s.alarms ∧
      s.programmed = some (1, ⟨false, 10, 0, 0⟩) ∧ ¬ Armed s := by
  refine ⟨⟨[(2, dailyAt 20), (1, ⟨Mode.oneshot, true, false, true, firstDay 10⟩)], some 1,
    some (1, ⟨false, 10, 0, 0⟩), [1], 10⟩, run_of_exec rfl, List.mem_cons_self, rfl,
    List.mem_cons_of_mem _ List.mem_cons_self, rfl, ?_⟩
  intro h
  obtain ⟨c, a, hcur, -, hstarted, hprog, -⟩ := h ⟨_, List.mem_cons_self, rfl⟩
  have hwkalarm := (Prod.mk.inj (Option.some.inj hprog)).2
  have henable : false = a.started := congrArg Wkalarm.enable hwkalarm
  rw [hstarted] at henable
  cases henable
end RtThread.Drivers.Rtc
