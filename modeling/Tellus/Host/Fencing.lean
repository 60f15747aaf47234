import Mathlib.Tactic
import Tellus.Host.Passivation
import Tellus.Persistence.Incarnations

/-!
A host never fences itself.

Here the entities of a host are event-sourced actors (`Hosting`): each of them has its place in the
system of actors, and runs the loop of `spawn_event_sourced` on one store.  The two move
independently, except that the loop makes a call only while the actor is in the phase the call is
made in; so every real run is one of these, and once an actor has terminated its loop does nothing
more.

* `Hosted.exclusive`: at most one actor of a key has not terminated.
* `Unfenced`: the invariant, by which every loop finds its stream as it has left it.
* `host_never_fences_itself`: every append is made at the end of its stream.
-/

namespace Tellus.Host

open Concurrent

variable {K M I : Type} {A : EventSourced I}

/-! ### Entities which are event-sourced -/

/-- The phase of an actor in which its loop makes a call. -/
def callsIn {P : Type} : Tellus.Op A → Phase P → Bool
  | .persistenceId, .recovering => true
  | .load _, .recovering => true
  | .read _ _ _, .recovering => true
  | .stoppedByParent, .recovering => true
  | .recovered _, .calling .init .none => true
  | .nextIncoming _, .calling .receive .none => true
  | .nextIncoming _, .dropping false => true
  | .handle _ _, .calling .receive .none => true
  | .encodeEvent _, .settling => true
  | .append _ _ _, .settling => true
  | .continuation _ _, .settling => true
  | .snapshot _, .settling => true
  | .encodeSnapshot _, .settling => true
  | .save _ _ _, .settling => true
  | .awaitRestart, .failed => true
  | .awaitRestart, .restarting => true
  | .awaitRestart, .backoff => true
  | _, _ => false

/-- Calls are made before an actor has terminated. -/
lemma not_closed_of_callsIn {P : Type} {op : Tellus.Op A} {p : Phase P}
    (hp : callsIn op p = true) : p.closed = false := by
  cases hc : p.closed with
  | false => rfl
  | true =>
      cases p with
      | terminating t => cases op <;> cases hp
      | finished => cases op <;> cases hp
      | _ => cases hc

/-- A store reports a conflict only if the stream does not end at the position named. -/
def Conforms [DecidableEq I] {ι : Type} (s : Shared A ι) : (op : Tellus.Op A) → op.Ans → Prop
  | .append id next events, x =>
      x = .err .conflict → s.store.append id next events = (.error .conflict, s.store)
  | _, _ => True

/-- A host and its entities. -/
structure Hosting (K M : Type) (A : EventSourced I) where
  host : Tasks Unit (Op K M) Op.Ans (World K M) (Point K M)
  entities : Tasks ActorId (Tellus.Op A) Tellus.Op.Ans (Shared A ActorId) (Tellus.Point A)

section Steps

variable [DecidableEq K] [DecidableEq I] (config : HostConfig) (kind : ActorId → Kind)
  (h : ActorId) (ident : ActorId → I) (pid : K → I)

/-- The steps of a host and its entities: one of the host or of any actor, a call of the loop of an
entity, or a save which was reported as failed takes effect.  An append takes effect before it
returns, if at all. -/
inductive Hosting.Step (p : Hosting K M A) : Hosting K M A → Prop
  | host {st' : Tasks Unit (Op K M) Op.Ans (World K M) (Point K M)}
      (hs : HostStep config kind h False p.host st')
      (hid : ∀ a key, st'.shared.entity a = some key → ident a = pid key) :
      Hosting.Step p ⟨st', p.entities⟩
  | answer {a : ActorId} {op : Tellus.Op A} {k : op.Ans → Tellus.Task A (Tellus.Point A)}
      {x : op.Ans} {s' : Shared A ActorId} (ha : p.host.shared.entity a ≠ none)
      (hphase : callsIn op (p.host.shared.sys.phase a) = true)
      (htask : p.entities.task a = .call op k)
      (hx : Tellus.Exec ident False a p.entities.shared op x s')
      (hconf : Conforms p.entities.shared op x) :
      Hosting.Step p ⟨p.host, ⟨s', Function.update p.entities.task a (k x)⟩⟩
  | jump {a : ActorId} {pt : Tellus.Point A} (ha : p.host.shared.entity a ≠ none)
      (htask : p.entities.task a = .ret pt) :
      Hosting.Step p
        ⟨p.host, ⟨p.entities.shared, Function.update p.entities.task a (Tellus.code A pt)⟩⟩
  | store {s' : Shared A ActorId} (hs : Tellus.Env False p.entities.shared s') :
      Hosting.Step p ⟨p.host, ⟨s', p.entities.task⟩⟩

/-- Before anything has happened, on a store in which something may be stored already. -/
def Hosting.start (s : Shared A ActorId) : Hosting K M A :=
  ⟨Tasks.solo World.init (.ret .run), ⟨s, fun _ => .ret .run⟩⟩

/-- The runs of a host and its entities. -/
abbrev Hosting.Runs (s : Shared A ActorId) (p : Hosting K M A) : Prop :=
  Relation.ReflTransGen (Hosting.Step config kind h ident pid) (Hosting.start s) p

end Steps

/-! ### The invariant -/

variable {config : HostConfig} {kind : ActorId → Kind} {h : ActorId} {ident : ActorId → I}
  {pid : K → I} {a b : ActorId} {key : K} {w w' : World K M}

/-- **At most one actor of a key has not terminated.** -/
lemma Hosted.exclusive (hw : Hosted kind h w) (ha : w.entity a = some key)
    (hb : w.entity b = some key) (hopen : (w.sys.phase a).closed = false)
    (hopen' : (w.sys.phase b).closed = false) : a = b := by
  have hlast : ∀ c, w.entity c = some key → (w.sys.phase c).closed = false →
      (w.incarnations key).getLast? = some c := by
    intro c hc hopen
    have hmem := (hw.listed c key).mp hc
    rcases List.eq_nil_or_concat (w.incarnations key) with hnil | ⟨before, d, hsplit⟩
    · rw [hnil] at hmem
      cases hmem
    · rw [List.concat_eq_append] at hsplit
      rw [hsplit, List.mem_append, List.mem_singleton] at hmem
      rcases hmem with hmem | rfl
      · rw [hw.past key before d hsplit c hmem] at hopen
        cases hopen
      · rw [hsplit, List.getLast?_append]
        rfl
  exact Option.some.inj ((hlast a ha hopen).symm.trans (hlast b hb hopen'))

variable [DecidableEq K]

/-- An entity stays one, and what has terminated stays so. -/
lemma Exec.entity {op : Op K M} {x : op.Ans} (hx : Exec kind h w op x w')
    (hw : Hosted kind h w) :
    (∀ a key, w.entity a = some key → w'.entity a = some key) ∧
      ∀ a, (w.sys.phase a).closed = true → (w'.sys.phase a).closed = true := by
  cases hx with
  | @spawn key c s' hs =>
      refine ⟨fun a key' ha => ?_, fun a hc => hs.closed hc⟩
      have hac : a ≠ c := by
        rintro rfl
        rw [hw.entity_unborn hs.spawned.1] at ha
        cases ha
      simpa [Function.update_of_ne hac] using ha
  | spawnTicker hs | watch hs | tell hs | tellForced hs | passivate hs | nextMessage hs
  | nextTerminated hs | returned hs | fails hs | restart hs =>
      exact ⟨fun _ _ ha => ha, fun _ hc => hs.closed hc⟩
  | _ => exact ⟨fun _ _ ha => ha, fun _ hc => hc⟩

/-- The same of any step. -/
lemma HostStep.entity {good : Prop}
    {st st' : Tasks Unit (Op K M) Op.Ans (World K M) (Point K M)}
    (hs : HostStep config kind h good st st') (hw : Hosted kind h st.shared) :
    (∀ a key, st.shared.entity a = some key → st'.shared.entity a = some key) ∧
      ∀ a, (st.shared.sys.phase a).closed = true → (st'.shared.sys.phase a).closed = true := by
  cases hs with
  | answer i _ hx => exact hx.1.entity hw
  | jump => exact ⟨fun _ _ ha => ha, fun _ hc => hc⟩
  | env he =>
      obtain ⟨he, -⟩ := he
      cases he with
      | step hs => exact ⟨fun _ _ ha => ha, fun _ hc => hs.closed hc⟩
      | tick => exact ⟨fun _ _ ha => ha, fun _ hc => hc⟩

variable [DecidableEq I]

/-- Every entity which has not terminated keeps the contract of the writers in its strict form, by
which the others leave its stream alone. -/
structure Unfenced (config : HostConfig) (kind : ActorId → Kind) (h : ActorId)
    (ident : ActorId → I) (pid : K → I) (p : Hosting K M A) : Prop where
  host : Reached config kind h False p.host
  keyed : ∀ a key, p.host.shared.entity a = some key → ident a = pid key
  inv : Tellus.Inv True p.entities.shared
  late : p.entities.shared.lateAppends = []
  start : ∀ a, p.host.shared.entity a = none → p.entities.task a = .ret .run
  safe : ∀ a key, p.host.shared.entity a = some key →
    (p.host.shared.sys.phase a).closed = false →
    Safe (writers A ident False True True) a (Tellus.PointOk A ident True a)
      (p.entities.task a) p.entities.shared

variable {p p' : Hosting K M A}

lemma Unfenced.hosted (hp : Unfenced config kind h ident pid p) : Hosted kind h p.host.shared :=
  (reached_good hp.host).1.toHosted

/-- Without late appends none is ever on its way. -/
lemma lateAppends_exec {ι : Type} [DecidableEq ι] {ident : ι → I} {i : ι} {s s' : Shared A ι}
    {op : Tellus.Op A} {x : op.Ans} (hx : Tellus.Exec ident False i s op x s') :
    s'.lateAppends = s.lateAppends := by
  cases hx with
  | appendLate hl => exact hl.elim
  | _ => rfl

/-- A step of the host keeps the entities as they are; a new one is at the head of its loop. -/
lemma Unfenced.step_host (hp : Unfenced config kind h ident pid p)
    {st' : Tasks Unit (Op K M) Op.Ans (World K M) (Point K M)}
    (hs : HostStep config kind h False p.host st')
    (hid : ∀ a key, st'.shared.entity a = some key → ident a = pid key) :
    Unfenced config kind h ident pid ⟨st', p.entities⟩ := by
  obtain ⟨hentity, hclosed⟩ := hs.entity hp.hosted
  refine ⟨hp.host.tail hs, hid, hp.inv, hp.late, fun a ha => hp.start a ?_, fun a key ha hopen => ?_⟩
  · cases hkey : p.host.shared.entity a with
    | none => rfl
    | some key =>
        rw [hentity a key hkey] at ha
        cases ha
  · cases hkey : p.host.shared.entity a with
    | none =>
        show Safe _ a _ (p.entities.task a) _
        rw [hp.start a hkey]
        exact fun _ _ _ => trivial
    | some key' =>
        refine hp.safe a key' hkey ?_
        cases hc : (p.host.shared.sys.phase a).closed with
        | false => rfl
        | true =>
            rw [hclosed a hc] at hopen
            cases hopen

/-- The loop of an entity makes a call. -/
lemma Unfenced.step_answer (hp : Unfenced config kind h ident pid p)
    (hpid : Function.Injective pid) {op : Tellus.Op A}
    {k : op.Ans → Tellus.Task A (Tellus.Point A)} {x : op.Ans} {s' : Shared A ActorId}
    (ha : p.host.shared.entity a = some key)
    (hopen : (p.host.shared.sys.phase a).closed = false)
    (htask : p.entities.task a = .call op k)
    (hx : Tellus.Exec ident False a p.entities.shared op x s') :
    Unfenced config kind h ident pid ⟨p.host, ⟨s', Function.update p.entities.task a (k x)⟩⟩ := by
  have hsafe := hp.safe a key ha hopen
  rw [htask] at hsafe
  obtain ⟨hinv', hgrows, hlatest, hstream⟩ := Tellus.exec_keeps hp.inv (hsafe.pre hp.inv) hx
  refine ⟨hp.host, hp.keyed, hinv', (lateAppends_exec hx).trans hp.late, fun b hb => ?_,
    fun b key' hb hopen' => ?_⟩
  · have hba : b ≠ a := by
      rintro rfl
      have hb : p.host.shared.entity b = none := hb
      rw [ha] at hb
      cases hb
    show Function.update p.entities.task a (k x) b = _
    rw [Function.update_of_ne hba]
    exact hp.start b hb
  · show Safe _ b _ (Function.update p.entities.task a (k x) b) s'
    by_cases hba : b = a
    · subst hba
      rw [Function.update_self]
      exact hsafe.step hp.inv hx hinv'
    · rw [Function.update_of_ne hba]
      -- the actor of another key has another stream
      have hne : ident b ≠ ident a := fun heq => by
        rw [hp.keyed b key' hb, hp.keyed a key ha] at heq
        obtain rfl := hpid heq
        exact hba (hp.hosted.exclusive hb ha hopen' hopen)
      exact (hp.safe b key' hb hopen').rely
        ⟨hgrows, hlatest b hba, fun _ => hstream (ident b) hne⟩

/-- **Every step keeps the entities unfenced.** -/
lemma Unfenced.step (hp : Unfenced config kind h ident pid p) (hpid : Function.Injective pid)
    (hs : Hosting.Step config kind h ident pid p p') : Unfenced config kind h ident pid p' := by
  cases hs with
  | host hs hid => exact hp.step_host hs hid
  | answer ha hphase htask hx hconf =>
      obtain ⟨key, ha⟩ := Option.ne_none_iff_exists'.mp ha
      exact hp.step_answer hpid ha (not_closed_of_callsIn hphase) htask hx
  | @jump a pt ha htask =>
      obtain ⟨key, ha⟩ := Option.ne_none_iff_exists'.mp ha
      refine ⟨hp.host, hp.keyed, hp.inv, hp.late, fun b hb => ?_, fun b key' hb hopen => ?_⟩
      · have hba : b ≠ a := by
          rintro rfl
          have hb : p.host.shared.entity b = none := hb
          rw [ha] at hb
          cases hb
        show Function.update p.entities.task a (Tellus.code A pt) b = _
        rw [Function.update_of_ne hba]
        exact hp.start b hb
      · show Safe _ b _ (Function.update p.entities.task a (Tellus.code A pt) b) _
        have hsafe := hp.safe b key' hb hopen
        by_cases hba : b = a
        · subst hba
          rw [Function.update_self]
          rw [htask] at hsafe
          exact Tellus.code_safe pt (hsafe.result hp.inv)
        · rw [Function.update_of_ne hba]
          exact hsafe
  | store hs =>
      cases hs with
      | lateAppend happ =>
          rw [hp.late] at happ
          cases happ
      | foreignAppend hf => exact hf.elim
      | lateSave hv =>
          refine ⟨hp.host, hp.keyed, hp.inv.saved (hp.inv.lateSaves _ hv), hp.late, hp.start,
            fun a key ha hopen => (hp.safe a key ha hopen).rely ?_⟩
          exact ⟨.of_eq (fun _ => rfl) rfl fun _ => rfl, rfl, fun _ => rfl⟩

/-- The entities are unfenced in every run. -/
lemma Hosting.Runs.unfenced {s : Shared A ActorId} (hrun : Hosting.Runs config kind h ident pid s p)
    (hpid : Function.Injective pid) (hinv : Tellus.Inv True s) (hlate : s.lateAppends = []) :
    Unfenced config kind h ident pid p := by
  induction hrun with
  | refl =>
      exact ⟨.refl, fun _ _ ha => (by cases ha), hinv, hlate, fun _ _ => rfl,
        fun _ _ ha => (by cases ha)⟩
  | tail _ hs ih => exact ih.step hpid hs

/-! ### A host with one counter -/

section Counting

/-- Runs of the host with one entity, which is a counter. -/
abbrev Counting (p : Hosting Unit Unit counter) : Prop :=
  Hosting.Runs sweepConfig sweepKind parentId (fun _ => ()) (fun _ => ()) Shared.init p

/-- The counter is at `t`, the others have not started. -/
def counting (w : World Unit Unit) (q : Task Unit Unit (Point Unit Unit))
    (s : Shared counter ActorId) (t : Tellus.Task counter (Tellus.Point counter)) :
    Hosting Unit Unit counter :=
  ⟨Tasks.solo w q, ⟨s, Function.update (fun _ => .ret .run) childId t⟩⟩

variable {w : World Unit Unit} {q : Task Unit Unit (Point Unit Unit)}
  {s s' : Shared counter ActorId} {t : Tellus.Task counter (Tellus.Point counter)}

/-- The runs of the host on its own. -/
lemma counting_host {st : Tasks Unit (Op Unit Unit) Op.Ans (World Unit Unit) (Point Unit Unit)}
    (hr : Reached sweepConfig sweepKind parentId False st) :
    Counting ⟨st, ⟨Shared.init, fun _ => .ret .run⟩⟩ := by
  induction hr with
  | refl => exact .refl
  | tail _ hs ih => exact ih.tail (.host hs fun _ _ _ => rfl)

/-- Some actor takes a step. -/
lemma counting_acts {l : Label (Payload Unit Unit)} {s'' : Sys (Payload Unit Unit)}
    (hr : Counting (counting w q s t)) (hs : Step sweepKind w.sys l s'')
    (hl : ¬ofHost parentId l) : Counting (counting (w.act l s'') q s t) :=
  hr.tail (.host (.env ⟨.step hs hl, False.elim⟩) fun _ _ _ => rfl)

/-- The counter makes a call. -/
lemma counting_calls {op : Tellus.Op counter}
    {k : op.Ans → Tellus.Task counter (Tellus.Point counter)} {x : op.Ans}
    (hr : Counting (counting w q s (.call op k))) (hw : w.entity childId ≠ none)
    (hphase : callsIn op (w.sys.phase childId) = true)
    (hx : Tellus.Exec (fun _ => ()) False childId s op x s') (hconf : Conforms s op x) :
    Counting (counting w q s' (k x)) := by
  have htask : (counting w q s (.call op k)).entities.task childId = .call op k := by
    simp [counting]
  have hr := hr.tail (.answer hw hphase htask hx hconf)
  simp only [counting, Function.update_idem] at hr
  exact hr

/-- The counter goes on at a point. -/
lemma counting_jump {pt : Tellus.Point counter} (hr : Counting (counting w q s (.ret pt)))
    (hw : w.entity childId ≠ none) : Counting (counting w q s (Tellus.code counter pt)) := by
  have htask : (counting w q s (.ret pt)).entities.task childId = .ret pt := by simp [counting]
  have hr := hr.tail (.jump hw htask)
  simp only [counting, Function.update_idem] at hr
  exact hr

/-- A run in which the counter is about to append its first event. -/
lemma counting_run : ∃ p k, Counting p ∧ p.host.shared.entity childId ≠ none ∧
    p.host.shared.sys.phase childId = .settling ∧
    p.entities.task childId = .call (.append () SeqNo.zero [counted]) k := by
  obtain ⟨⟨w, q, hr, hentity, hphase, hunstopped, hqueue⟩, -⟩ := sweep_runs False
  have hw : w.entity childId ≠ none := by rw [hentity, Function.update_self]; simp
  have hread : Tellus.Exec (fun _ => ()) False childId (Shared.init : Shared counter ActorId)
      (.read () SeqNo.zero replayPageLimit) (.ok []) Shared.init :=
    .read () SeqNo.zero replayPageLimit
  have hevent : Tellus.Exec (fun _ => ()) False childId
      ((Shared.init : Shared counter ActorId).decide childId ⟨(), (0 : ℕ), count⟩)
      (.encodeEvent ()) (.ok []) (Shared.init.decide childId ⟨(), (0 : ℕ), count⟩) :=
    .encodeEvent rfl
  have hr : Counting (counting w q Shared.init (.ret .run)) := by
    rw [counting, Function.update_eq_self_iff.mpr rfl]
    exact counting_host hr
  have hr := counting_jump hr hw
  have hr := counting_calls hr hw (by rw [hphase]; rfl) (.stoppedByParent false) trivial
  have hr := counting_calls hr hw (by rw [hphase]; rfl) .persistenceId trivial
  have hr := counting_calls hr hw (by rw [hphase]; rfl) (.stoppedByParent false) trivial
  have hr := counting_calls hr hw (by rw [hphase]; rfl) (.load ()) trivial
  have hr := counting_calls hr hw (by rw [hphase]; rfl) (.stoppedByParent false) trivial
  have hr := counting_jump hr hw
  have hr := counting_calls hr hw (by rw [hphase]; rfl) (.stoppedByParent false) trivial
  have hr := counting_calls hr hw (by rw [hphase]; rfl) hread trivial
  have hr := counting_calls hr hw (by rw [hphase]; rfl) (.stoppedByParent false) trivial
  have hr := counting_jump hr hw
  have hr := counting_acts hr (.move (a := childId) hphase .recovered) nofun
  have hr := counting_calls hr hw rfl (.recovered _) trivial
  have hr := counting_jump hr hw
  have hr := counting_acts hr (.move (a := childId) rfl (.returned (.initialised _)))
    (by decide : childId ≠ parentId)
  have hr := counting_acts hr (.move (a := childId) rfl (.polled hunstopped)) nofun
  have hr := counting_acts hr (.take (a := childId) rfl hqueue) nofun
  have hr := counting_acts hr (.move (a := childId) rfl .handMessage)
    (by decide : childId ≠ parentId)
  have hr := counting_calls hr hw rfl (.nextIncoming _ (some (.message ()))) trivial
  have hr := counting_calls hr hw rfl (.handle _ _ count) trivial
  have hr := counting_acts hr (.move (a := childId) rfl (.returned .decides))
    (by decide : childId ≠ parentId)
  have hr := counting_calls hr hw rfl hevent trivial
  exact ⟨_, _, hr, hw, rfl, rfl⟩

end Counting

/-- **A host never fences itself.**  Whatever happens to the host and its entities, and whichever
appends take effect although they are reported as failed: an entity which makes an append names
the position its stream ends at, so the append is never answered with a conflict. -/
theorem host_never_fences_itself {s : Shared A ActorId} (hpid : Function.Injective pid)
    (hinv : Tellus.Inv True s) (hlate : s.lateAppends = [])
    (hrun : Hosting.Runs config kind h ident pid s p) {id : I} {next : SeqNo}
    {events : List EncodedEvent}
    {k : Outcome (AppendError String) Unit → Tellus.Task A (Tellus.Point A)}
    (ha : p.host.shared.entity a ≠ none) (hphase : p.host.shared.sys.phase a = .settling)
    (htask : p.entities.task a = .call (.append id next events) k) :
    next.toNat = (p.entities.shared.stream id).length ∧
      (∃ store, p.entities.shared.store.append id next events = (.ok (), store)) ∧
      ∀ x s', Tellus.Exec ident False a p.entities.shared (.append id next events) x s' →
        Conforms p.entities.shared (.append id next events) x → x ≠ .err .conflict := by
  have hp := hrun.unfenced hpid hinv hlate
  obtain ⟨key, ha⟩ := Option.ne_none_iff_exists'.mp ha
  have hsafe := hp.safe a key ha (by rw [hphase]; rfl)
  rw [htask] at hsafe
  obtain ⟨-, -, hexact⟩ := hsafe.pre hp.inv
  have hnext := hexact trivial
  have hlen : (p.entities.shared.stream id).length < 2 ^ 64 :=
    lt_of_le_of_lt (hp.inv.fits id) (by norm_num [vecMax])
  have hstore : ∃ store, p.entities.shared.store.append id next events = (.ok (), store) := by
    refine ⟨_, if_neg (not_not.mpr ?_)⟩
    exact (SeqNo.new_eq_iff hlen).mpr hnext.symm
  refine ⟨hnext, hstore, fun x s' _ hconf hconflict => ?_⟩
  obtain ⟨store, hok⟩ := hstore
  have := hconf hconflict
  rw [hok] at this
  cases this

/-- The counter names the end of its stream. -/
theorem counter_unfenced : ∃ p k, Counting p ∧
    p.entities.task childId = .call (.append () SeqNo.zero [counted]) k ∧
    SeqNo.zero.toNat = (p.entities.shared.stream ()).length := by
  obtain ⟨p, k, hr, ha, hphase, htask⟩ := counting_run
  have hpid : Function.Injective fun _ : Unit => () := fun _ _ _ => rfl
  exact ⟨p, k, hr, htask,
    (host_never_fences_itself hpid Tellus.Inv.init rfl hr ha hphase htask).1⟩

end Tellus.Host
