import Mathlib.Tactic
import Tellus.Persistence.Log
import Tellus.Persistence.Spawn

/-!
The paging loop of `recover` over a stream which may grow between two pages.

A conforming read returns up to `limit` events from a position on, in order (`pageOf`).  The
loop advances its position by the length of each page and ends with the first short one, so
position and page length stay in step: a full page never passes the end of the stream, and a
short one reaches it.

* `pageOf_append_drop`: a page and the rest after it, of whatever the stream has grown to.
* `recoverPage_pageOf`: one turn of the loop is the fold over its page.
* `replayLoop`, `replayLoop_complete`: the loop terminates, and its turns together are the fold
  over the stream as it was when the last page was read.
-/

namespace Tellus

open Concurrent

variable {I : Type} {A : EventSourced I}

/-! ### Pages -/

/-- What a conforming read returns: up to `limit` events from `start` on, in order. -/
def pageOf (stream : List StoredEvent) (start : SeqNo) (limit : ℕ) : List StoredEvent :=
  (stream.filter fun e => start.toNat ≤ e.seqNo.toNat).take limit

section Pages

variable {stream later : List StoredEvent} {start : SeqNo} {limit : ℕ}

lemma pageOf_eq (hnum : Numbered stream) (start : SeqNo) (limit : ℕ) :
    pageOf stream start limit = (stream.drop start.toNat).take limit := by
  rw [pageOf, filter_seqNo_eq_drop (k := 0) start (by simpa [Numbered] using hnum), Nat.sub_zero]

lemma pageOf_length (hnum : Numbered stream) (start : SeqNo) (limit : ℕ) :
    (pageOf stream start limit).length = min limit (stream.length - start.toNat) := by
  rw [pageOf_eq hnum, List.length_take, List.length_drop]

/-- A page is numbered from its start on. -/
lemma pageOf_numbered (hnum : Numbered stream) (n : ℕ) (e : StoredEvent)
    (h : (pageOf stream start limit)[n]? = some e) : e.seqNo.toNat = start.toNat + n := by
  rw [pageOf_eq hnum, List.getElem?_take] at h
  split at h
  · rw [List.getElem?_drop] at h
    exact hnum _ e h
  · cases h

/-- What a stream has grown to, from the start of an earlier page on, is that page and the
rest. -/
lemma pageOf_append_drop (limit : ℕ) (hnum : Numbered stream) (hgrow : stream <+: later)
    (hstart : start.toNat ≤ stream.length) :
    later.drop start.toNat = pageOf stream start limit ++
      later.drop (start.toNat + (pageOf stream start limit).length) := by
  obtain ⟨more, rfl⟩ := hgrow
  have htake : ∀ m, stream.drop start.toNat =
      (stream.drop start.toNat).take m ++ stream.drop (start.toNat + m) := by
    intro m
    rw [← List.drop_drop, List.take_append_drop]
  have hlen := pageOf_length hnum start limit
  have hpage : pageOf stream start limit =
      (stream.drop start.toNat).take (pageOf stream start limit).length := by
    rw [pageOf_length hnum, ← List.length_drop, ← List.take_eq_take_min, pageOf_eq hnum]
  rw [List.drop_append_of_le_length hstart, List.drop_append_of_le_length (by omega),
    ← List.append_assoc]
  conv_lhs => rw [htake (pageOf stream start limit).length, ← hpage]

end Pages

/-! ### The loop -/

/-- The answers of a conforming read, the stream being as given. -/
def pageAnswers (A : EventSourced I) (stream : List StoredEvent) : (op : Op A) → Option op.Ans
  | .read _ start limit => some (.ok (pageOf stream start limit))
  | _ => none

/-- The loop of `recover` from its `n`-th page read on, for at most `fuel` pages, the stream
being `streams n` when the `n`-th page is read: the number of the last page and the result. -/
def replayLoop (A : EventSourced I) (streams : ℕ → List StoredEvent) :
    ℕ → ℕ → Recovered A → Option (ℕ × Option (Recovered A))
  | 0, _, _ => none
  | fuel + 1, n, r =>
      match (recoverPage A r).eval (pageAnswers A (streams n)) with
      | none => none
      | some none => some (n, none)
      | some (some (r, true)) => some (n, some r)
      | some (some (r, false)) => replayLoop A streams fuel (n + 1) r

/-- One turn of the loop folds its page. -/
lemma recoverPage_pageOf {stream : List StoredEvent} {r : Recovered A} (hnum : Numbered stream)
    (hfits : stream.length < 2 ^ 64) (hstart : r.nextSeqNo.toNat ≤ stream.length) :
    (recoverPage A r).eval (pageAnswers A stream) =
      some ((A.replay r.id r.state ((pageOf stream r.nextSeqNo replayPageLimit).map
        StoredEvent.event)).map fun state =>
          (⟨r.id, state,
              r.nextSeqNo.advancedBy (pageOf stream r.nextSeqNo replayPageLimit).length⟩,
            decide ((pageOf stream r.nextSeqNo replayPageLimit).length < replayPageLimit))) := by
  set page := pageOf stream r.nextSeqNo replayPageLimit with hpage
  have hlen : page.length = min replayPageLimit (stream.length - r.nextSeqNo.toNat) :=
    pageOf_length hnum _ _
  have hroom : r.nextSeqNo.toNat + page.length < 2 ^ 64 := by omega
  have heval : (recoverPage A r).eval (pageAnswers A stream) =
      some ((catchAndLog (replayPage A r.id r.state r.nextSeqNo page)).map fun p =>
        (⟨r.id, p.1, p.2⟩, decide (page.length < replayPageLimit))) := rfl
  rw [heval, replayPage_eq (pageOf_numbered hnum) hroom, Option.map_map]
  rfl

/-- The result of a loop which has folded a stream from the position of `r` on. -/
def folded (r : Recovered A) (stream : List StoredEvent) : Option (Recovered A) :=
  (A.replay r.id r.state ((stream.drop r.nextSeqNo.toNat).map StoredEvent.event)).map
    fun state => ⟨r.id, state, SeqNo.new stream.length⟩

section Loop

variable {streams : ℕ → List StoredEvent}

/-- The stream at one page read is the beginning of the stream at any later one. -/
lemma prefix_of_le (hgrow : ∀ n, streams n <+: streams (n + 1)) {n m : ℕ} (h : n ≤ m) :
    streams n <+: streams m := by
  induction m, h using Nat.le_induction with
  | base => exact List.prefix_rfl
  | succ m _ ih => exact ih.trans (hgrow m)

/-- A turn with a full page: the loop goes on behind it, and what it folds from there is what
it would have folded from here. -/
lemma folded_of_page {stream later : List StoredEvent} {r : Recovered A} {state : A.State}
    (hnum : Numbered stream) (hgrow : stream <+: later) (hfits : stream.length < 2 ^ 64)
    (hstart : r.nextSeqNo.toNat ≤ stream.length)
    (hpage : A.replay r.id r.state
      ((pageOf stream r.nextSeqNo replayPageLimit).map StoredEvent.event) = some state) :
    folded r later = folded (⟨r.id, state, r.nextSeqNo.advancedBy
      (pageOf stream r.nextSeqNo replayPageLimit).length⟩ : Recovered A) later := by
  have hlen := pageOf_length hnum r.nextSeqNo replayPageLimit
  simp only [folded]
  rw [pageOf_append_drop replayPageLimit hnum hgrow hstart, List.map_append,
    EventSourced.replay_append, hpage, Option.bind_some, SeqNo.toNat_advancedBy (by omega)]

/-- A page on which the fold fails: so does the fold over the whole rest. -/
lemma folded_of_page_none {stream later : List StoredEvent} {r : Recovered A}
    (hnum : Numbered stream) (hgrow : stream <+: later)
    (hstart : r.nextSeqNo.toNat ≤ stream.length)
    (hpage : A.replay r.id r.state
      ((pageOf stream r.nextSeqNo replayPageLimit).map StoredEvent.event) = none) :
    folded r later = none := by
  rw [folded, pageOf_append_drop replayPageLimit hnum hgrow hstart, List.map_append,
    EventSourced.replay_append, hpage]
  rfl

/-- Behind a short page there is nothing left to fold. -/
lemma folded_of_short {stream : List StoredEvent} {r : Recovered A} {state : A.State}
    (hnum : Numbered stream) (hfits : stream.length < 2 ^ 64)
    (hstart : r.nextSeqNo.toNat ≤ stream.length)
    (hpage : A.replay r.id r.state
      ((pageOf stream r.nextSeqNo replayPageLimit).map StoredEvent.event) = some state)
    (hshort : (pageOf stream r.nextSeqNo replayPageLimit).length < replayPageLimit) :
    folded r stream = some ⟨r.id, state, r.nextSeqNo.advancedBy
      (pageOf stream r.nextSeqNo replayPageLimit).length⟩ := by
  have hlen := pageOf_length hnum r.nextSeqNo replayPageLimit
  have hend : r.nextSeqNo.toNat + (pageOf stream r.nextSeqNo replayPageLimit).length =
      stream.length := by omega
  have hpos : r.nextSeqNo.advancedBy (pageOf stream r.nextSeqNo replayPageLimit).length =
      SeqNo.new stream.length := by
    apply SeqNo.ext
    rw [SeqNo.toNat_advancedBy (by omega), SeqNo.toNat_new hfits, hend]
  rw [folded_of_page hnum List.prefix_rfl hfits hstart hpage, folded,
    SeqNo.toNat_advancedBy (by omega), hend, List.drop_length, hpos]
  rfl

/-- The loop from its `n`-th page on, `limit` bounding the length of the stream: it advances by
a full page with every turn but the last. -/
lemma replayLoop_spec (hnum : ∀ n, Numbered (streams n))
    (hgrow : ∀ n, streams n <+: streams (n + 1)) {bound : ℕ}
    (hbound : ∀ n, (streams n).length ≤ bound) (hfits : bound < 2 ^ 64) {n : ℕ}
    {r : Recovered A} (hstart : r.nextSeqNo.toNat ≤ (streams n).length) :
    ∃ turns, r.nextSeqNo.toNat + turns * replayPageLimit ≤ (streams (n + turns)).length ∧
      (folded r (streams (n + turns)) ≠ none → (streams (n + turns)).length <
        r.nextSeqNo.toNat + (turns + 1) * replayPageLimit) ∧
      ∀ fuel, turns < fuel → replayLoop A streams fuel n r =
        some (n + turns, folded r (streams (n + turns))) := by
  -- the distance to the bound shrinks with every full page
  induction hd : bound - r.nextSeqNo.toNat using Nat.strong_induction_on generalizing n r with
  | _ d ih =>
      have hlt : (streams n).length < 2 ^ 64 := lt_of_le_of_lt (hbound n) hfits
      have hturn := recoverPage_pageOf (A := A) (hnum n) hlt hstart
      have hlen := pageOf_length (hnum n) r.nextSeqNo replayPageLimit
      set page := pageOf (streams n) r.nextSeqNo replayPageLimit with hpage
      cases hrep : A.replay r.id r.state (page.map StoredEvent.event) with
      | none =>
          have hfold : folded r (streams n) = none :=
            folded_of_page_none (hnum n) List.prefix_rfl hstart hrep
          refine ⟨0, by simpa using hstart, fun h => absurd hfold h, fun fuel hfuel => ?_⟩
          obtain ⟨fuel, rfl⟩ := Nat.exists_eq_succ_of_ne_zero (Nat.ne_of_gt hfuel)
          rw [replayLoop, hturn, hrep]
          simp [hfold]
      | some state =>
          rcases Nat.lt_or_ge page.length replayPageLimit with hshort | hfull
          · have hfold := folded_of_short (hnum n) hlt hstart hrep hshort
            refine ⟨0, by simpa using hstart, fun _ => ?_, fun fuel hfuel => ?_⟩
            · rw [Nat.add_zero]
              omega
            · obtain ⟨fuel, rfl⟩ := Nat.exists_eq_succ_of_ne_zero (Nat.ne_of_gt hfuel)
              rw [replayLoop, hturn, hrep]
              simp [hshort, hfold, ← hpage]
          · let next : Recovered A := ⟨r.id, state, r.nextSeqNo.advancedBy page.length⟩
            have hpos : next.nextSeqNo.toNat = r.nextSeqNo.toNat + page.length :=
              SeqNo.toNat_advancedBy (by omega)
            have hgrown : (streams n).length ≤ (streams (n + 1)).length := (hgrow n).length_le
            have hbig : 0 < replayPageLimit := by norm_num [replayPageLimit]
            have hcloser : bound - next.nextSeqNo.toNat < d := by
              have := hbound n
              omega
            have hfold : ∀ m, folded r (streams (n + 1 + m)) = folded next (streams (n + 1 + m)) :=
              fun m => folded_of_page (hnum n) (prefix_of_le hgrow (by omega)) hlt hstart hrep
            obtain ⟨turns, hle, hend, hloop⟩ := ih _ hcloser (n := n + 1) (r := next) (by omega) rfl
            simp only [hpos, ← hfold] at hle hend hloop
            have hturns : n + 1 + turns = n + (turns + 1) := by omega
            rw [hturns] at hle hend hloop
            refine ⟨turns + 1, ?_, fun h => ?_, fun fuel hfuel => ?_⟩
            · rw [Nat.add_mul, Nat.one_mul]
              omega
            · have := hend h
              rw [Nat.add_mul (turns + 1), Nat.one_mul]
              omega
            · obtain ⟨fuel, rfl⟩ := Nat.exists_eq_succ_of_ne_zero (by omega : fuel ≠ 0)
              rw [replayLoop, hturn, hrep]
              simpa [Nat.not_lt.mpr hfull] using hloop fuel (by omega)

/-- The number of full pages in front of a position of the stream. -/
lemma turns_le {start turns length : ℕ} (h : start + turns * replayPageLimit ≤ length) :
    turns ≤ (length - start) / replayPageLimit := by
  rw [Nat.le_div_iff_mul_le (by norm_num [replayPageLimit])]
  omega

/-- **Paged replay is complete.**  However the stream grows between the page reads, the loop
terminates, and its result is that of one fold over the stream as it was when the last page was
read: its length for the position, and no state if an event of it does not decode or cannot be
applied.  Every page but the last is full, so a stream which does not grow takes a page for each
full one in it and one more. -/
theorem replayLoop_complete (hnum : ∀ n, Numbered (streams n))
    (hgrow : ∀ n, streams n <+: streams (n + 1)) (hfits : ∀ n, (streams n).length < 2 ^ 64)
    {r : Recovered A} (hstart : r.nextSeqNo.toNat ≤ (streams 0).length) :
    ∃ last, r.nextSeqNo.toNat + last * replayPageLimit ≤ (streams last).length ∧
      (folded r (streams last) ≠ none → (streams last).length <
        r.nextSeqNo.toNat + (last + 1) * replayPageLimit) ∧
      (∀ fuel, last < fuel → replayLoop A streams fuel 0 r =
        some (last, folded r (streams last))) ∧
      ∀ stream, (∀ n, streams n = stream) → ∀ fuel,
        (stream.length - r.nextSeqNo.toNat) / replayPageLimit < fuel →
          replayLoop A streams fuel 0 r = some (last, folded r stream) := by
  obtain ⟨last, hle, hend, hloop⟩ := replayLoop_spec (A := A) hnum hgrow
    (fun n => Nat.le_sub_one_of_lt (hfits n)) (by norm_num) hstart
  rw [Nat.zero_add] at hle hend hloop
  refine ⟨last, hle, hend, hloop, fun stream hquiet fuel hfuel => ?_⟩
  rw [hquiet last] at hle hloop
  exact hloop fuel (lt_of_le_of_lt (turns_le hle) hfuel)

end Loop

/-- A stream of exactly one full page, to which another writer appends once that page has been
read. -/
def burst (n : ℕ) : List StoredEvent :=
  InMemoryStore.stored SeqNo.zero (List.replicate (replayPageLimit + min n 1) counted)

theorem replayLoop_complete_burst :
    ∃ last, 0 + last * replayPageLimit ≤ (burst last).length ∧
      (folded (⟨(), (0 : ℕ), SeqNo.zero⟩ : Recovered counter) (burst last) ≠ none →
        (burst last).length < 0 + (last + 1) * replayPageLimit) ∧
      (∀ fuel, last < fuel → replayLoop counter burst fuel 0 ⟨(), (0 : ℕ), SeqNo.zero⟩ =
        some (last, folded ⟨(), (0 : ℕ), SeqNo.zero⟩ (burst last))) ∧
      ∀ stream, (∀ n, burst n = stream) → ∀ fuel,
        (stream.length - 0) / replayPageLimit < fuel →
          replayLoop counter burst fuel 0 ⟨(), (0 : ℕ), SeqNo.zero⟩ =
            some (last, folded ⟨(), (0 : ℕ), SeqNo.zero⟩ stream) := by
  have hlen : ∀ n, (List.replicate (replayPageLimit + min n 1) counted).length < 2 ^ 64 := by
    intro n
    rw [List.length_replicate, replayPageLimit]
    omega
  have hgrow : ∀ n, List.replicate (replayPageLimit + min n 1) counted <+:
      List.replicate (replayPageLimit + min (n + 1) 1) counted := by
    intro n
    have hmore : replayPageLimit + min (n + 1) 1 = replayPageLimit + min n 1 + (1 - min n 1) := by
      omega
    rw [hmore, List.replicate_add _ (1 - min n 1)]
    exact List.prefix_append _ _
  have hstart : (Recovered.nextSeqNo (A := counter) ⟨(), (0 : ℕ), SeqNo.zero⟩).toNat ≤
      (burst 0).length := Nat.zero_le _
  refine replayLoop_complete (fun n => ?_) (fun n => ?_) (fun n => ?_) hstart
  · exact numbered_append numbered_nil rfl (by simpa using hlen n)
  · exact InMemoryStore.stored_prefix (hgrow n)
  · rw [burst, InMemoryStore.stored_length]
    exact hlen n

end Tellus
