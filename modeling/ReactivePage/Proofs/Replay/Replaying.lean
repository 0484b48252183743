import ReactivePage.Page
import ReactivePage.Proofs.Replay.Encoding
import ReactivePage.Proofs.Replay.Queues
import ReactivePage.Proofs.Watch.Sending

/-!
What was recorded is replayed.

A recorder keeps the state of its transport and a log side by side; a page that replays keeps the
state of the live transport, the cache and its store. `replayed` says what requests are answered
with by counting alone: the queues of a cache do not occur in it.
-/

namespace ReactivePage

namespace Transport

variable {σ τ : Type}

def run (t : Transport σ) : List Request → σ → List Outcome × σ
  | [], s => ([], s)
  | request :: rest, s =>
    let (outcome, s) := t.send request s
    let (outcomes, s) := t.run rest s
    (outcome :: outcomes, s)

theorem run_cons (t : Transport σ) (request : Request) (rest : List Request) (s : σ) :
    t.run (request :: rest) s
      = ((t.send request s).1 :: (t.run rest (t.send request s).2).1,
          (t.run rest (t.send request s).2).2) :=
  rfl

theorem length_run (t : Transport σ) (requests : List Request) (s : σ) :
    (t.run requests s).1.length = requests.length := by
  induction requests generalizing s with
  | nil => rfl
  | cons request rest ih => exact congrArg (· + 1) (ih _)

def within (t : Transport τ) (part : Lens σ τ) : Transport σ where
  send := fun request s =>
    let (outcome, next) := t.send request (part.get s)
    (outcome, part.set s next)

def Fits (t : Transport σ) : Prop :=
  ∀ request s response, (t.send request s).1 = .ok response → response.status < 65536

theorem Fits.run {t : Transport σ} (h : t.Fits) (requests : List Request) (s : σ) :
    ∀ outcome ∈ (t.run requests s).1, (Record.ofOutcome outcome).Fits := by
  induction requests generalizing s with
  | nil => exact fun _ hm => nomatch hm
  | cons request rest ih =>
    intro outcome hm
    rcases List.mem_cons.1 hm with rfl | hm
    · intro response hr
      cases hsend : (t.send request s).1 with
      | error e => simp [hsend, Record.ofOutcome] at hr
      | ok r =>
        obtain rfl : r = response := by simpa [hsend, Record.ofOutcome] using hr
        exact h request s r hsend
    · exact ih _ outcome hm

end Transport

abbrev History := List (Request × Outcome)

namespace History

def outcomesOf (history : History) (identity : String) : List Outcome :=
  (history.filter fun e => e.1.identity = identity).map Prod.snd

end History

def recalled : Outcome → Outcome
  | .ok response => .ok response
  | .error e => .error (.recorded e.bare)

theorem Record.outcome_ofOutcome (o : Outcome) : (Record.ofOutcome o).outcome = recalled o := by
  cases o <;> rfl

theorem Record.ofOutcome_recalled (o : Outcome) :
    Record.ofOutcome (recalled o) = Record.ofOutcome o := by
  cases o <;> rfl

namespace Snapshot

def addAll (s : Snapshot) (history : History) : Snapshot :=
  history.foldl (fun s e => s.add e.1.identity (Record.ofOutcome e.2)) s

theorem find?_add (s : Snapshot) (identity other : String) (r : Record) :
    ((s.add identity r).find? other).getD []
      = (s.find? other).getD [] ++ if other = identity then [r] else [] := by
  rw [add, Dict.find?_insert_eq_ite]
  split
  · next h => rw [h, Option.getD_some]
  · rw [List.append_nil]

theorem find?_addAll (s : Snapshot) (history : History) (identity : String) :
    ((s.addAll history).find? identity).getD []
      = (s.find? identity).getD [] ++ (history.outcomesOf identity).map Record.ofOutcome := by
  induction history generalizing s with
  | nil => exact (List.append_nil _).symm
  | cons e rest ih =>
    rw [addAll, List.foldl_cons, ← addAll, ih, find?_add, List.append_assoc]
    by_cases h : e.1.identity = identity
    · simp [History.outcomesOf, h]
    · simp [History.outcomesOf, h, Ne.symm h]

theorem fits_addAll {history : History} (h : ∀ e ∈ history, (Record.ofOutcome e.2).Fits) :
    (addAll ∅ history).Fits := by
  intro e he r hr
  have hfind := find?_addAll ∅ history e.1
  rw [Dict.mem_toList.1 he, Option.getD_some, Dict.find?_empty, Option.getD_none,
    List.nil_append] at hfind
  rw [hfind, History.outcomesOf, List.map_map, List.mem_map] at hr
  obtain ⟨f, hf, rfl⟩ := hr
  exact h f (List.mem_of_mem_filter hf)

theorem addAll_recalled (s : Snapshot) (requests : List Request) (outcomes : List Outcome) :
    s.addAll (requests.zip (outcomes.map recalled)) = s.addAll (requests.zip outcomes) := by
  rw [addAll, addAll, List.zip_map_right, List.foldl_map]
  simp only [Prod.map, id, Record.ofOutcome_recalled]

end Snapshot

structure Recorder (τ : Type) where
  inner : τ
  log : Snapshot

namespace Recorder

variable {τ : Type}

def transport (inner : Transport τ) : Transport (Recorder τ) :=
  (inner.within ⟨Recorder.inner, fun s t => { s with inner := t }⟩).recording
    ⟨Recorder.log, fun s log => { s with log }⟩

theorem run_transport (inner : Transport τ) (requests : List Request) (s : Recorder τ) :
    (transport inner).run requests s
      = ((inner.run requests s.inner).1,
          ⟨(inner.run requests s.inner).2,
            s.log.addAll (requests.zip (inner.run requests s.inner).1)⟩) := by
  induction requests generalizing s with
  | nil => rfl
  | cons request rest ih =>
    rw [Transport.run_cons, ih]
    rfl

end Recorder

structure Hydration (τ : Type) where
  live : τ
  cache : Cache
  store : Store

namespace Hydration

variable {σ τ : Type}

def transport (p : Page σ) (live : Transport τ) : Transport (Hydration τ) :=
  p.hydrating (live.within ⟨Hydration.live, fun s t => { s with live := t }⟩)
    ⟨Hydration.cache, fun s cache => { s with cache }⟩
    ⟨Hydration.store, fun s store => { s with store }⟩

def wake (p : Page σ) (s : Store) : Store := (s.send p.scheduler.channel .wake).2

theorem send_of_some {p : Page σ} {live : Transport τ} {request : Request} {s : Hydration τ}
    {r : Record} (h : (s.cache.lookup request.identity).1 = some r) :
    (transport p live).send request s
      = (r.outcome, ⟨s.live, (s.cache.lookup request.identity).2, wake p s.store⟩) := by
  simp only [transport, Page.hydrating, Transport.replaying, h]
  rfl

theorem send_of_none {p : Page σ} {live : Transport τ} {request : Request} {s : Hydration τ}
    (h : (s.cache.lookup request.identity).1 = none) :
    (transport p live).send request s
      = ((live.send request s.live).1, ⟨(live.send request s.live).2,
          (s.cache.lookup request.identity).2, wake p s.store⟩) := by
  simp only [transport, Page.hydrating, Transport.replaying, h]
  rfl

end Hydration

def timesSent (requests : List Request) (identity : String) : Nat :=
  requests.countP fun request => request.identity = identity

/-- What requests are answered with behind those that were `sent`: the `i`-th request of an
identity with the `i`-th recorded outcome of that identity, and by the live transport if there is
none. Only then the live transport has a request to answer. -/
def replayed {τ : Type} (history : History) (live : Transport τ) :
    List Request → List Request → τ → List Outcome × τ
  | _, [], t => ([], t)
  | sent, request :: rest, t =>
    match (history.outcomesOf request.identity)[timesSent sent request.identity]? with
    | some outcome =>
      let (outcomes, t) := replayed history live (sent ++ [request]) rest t
      (recalled outcome :: outcomes, t)
    | none =>
      let (outcome, t) := live.send request t
      let (outcomes, t) := replayed history live (sent ++ [request]) rest t
      (outcome :: outcomes, t)

theorem timesSent_append (sent : List Request) (request : Request) (identity : String) :
    timesSent (sent ++ [request]) identity
      = timesSent sent identity + if identity = request.identity then 1 else 0 := by
  rw [timesSent, timesSent, List.countP_append, List.countP_singleton]
  simp [eq_comm]

def Cache.Holds (c : Cache) (history : History) (sent : List Request) : Prop :=
  ∀ identity, c.recordsOf identity
    = ((history.outcomesOf identity).drop (timesSent sent identity)).map Record.ofOutcome

namespace Cache.Holds

variable {c : Cache} {history : History} {sent : List Request}

theorem lookup_fst (h : c.Holds history sent) (identity : String) :
    (c.lookup identity).1
      = ((history.outcomesOf identity)[timesSent sent identity]?).map Record.ofOutcome := by
  rw [Cache.lookup_fst, h identity, List.head?_map, List.head?_drop]

theorem lookup_snd (h : c.Holds history sent) (request : Request) :
    (c.lookup request.identity).2.Holds history (sent ++ [request]) := by
  intro identity
  rw [recordsOf_lookup, timesSent_append]
  split
  · next heq =>
    rw [heq, h request.identity, ← List.map_tail, List.tail_drop]
  · exact h identity

end Cache.Holds

namespace Hydration

variable {σ τ : Type}

theorem run_transport (p : Page σ) (live : Transport τ) {history : History} {sent : List Request}
    (requests : List Request) {s : Hydration τ} (h : s.cache.Holds history sent) :
    (((transport p live).run requests s).1, ((transport p live).run requests s).2.live)
        = replayed history live sent requests s.live ∧
      Store.Raises p.scheduler.channel s.store (List.replicate requests.length .wake)
        ((transport p live).run requests s).2.store := by
  induction requests generalizing s sent with
  | nil => exact ⟨rfl, .quiet rfl⟩
  | cons request rest ih =>
    have hlookup := h.lookup_fst request.identity
    have hwake : Store.Raises p.scheduler.channel s.store [.wake] (wake p s.store) :=
      .send s.store .wake
    rw [Transport.run_cons, replayed]
    cases hnext : (history.outcomesOf request.identity)[timesSent sent request.identity]? with
    | some outcome =>
      rw [hnext] at hlookup
      rw [send_of_some hlookup]
      obtain ⟨hrun, hraises⟩ := ih (s := ⟨s.live, (s.cache.lookup request.identity).2,
        wake p s.store⟩) (h.lookup_snd request)
      refine ⟨?_, hwake.trans hraises⟩
      rw [← hrun, Record.outcome_ofOutcome]
    | none =>
      rw [hnext] at hlookup
      rw [send_of_none hlookup]
      obtain ⟨hrun, hraises⟩ := ih (s := ⟨(live.send request s.live).2,
        (s.cache.lookup request.identity).2, wake p s.store⟩) (h.lookup_snd request)
      refine ⟨?_, hwake.trans hraises⟩
      dsimp only
      rw [← hrun]

end Hydration

namespace History

theorem length_outcomesOf (history : History) (identity : String) :
    (history.outcomesOf identity).length = timesSent (history.map Prod.fst) identity := by
  rw [outcomesOf, List.length_map, ← List.countP_eq_length_filter, timesSent, List.countP_map]
  rfl

theorem getElem?_outcomesOf (done rest : History) (e : Request × Outcome) :
    (outcomesOf (done ++ e :: rest) e.1.identity)[timesSent (done.map Prod.fst) e.1.identity]?
      = some e.2 := by
  have hsplit : outcomesOf (done ++ e :: rest) e.1.identity
      = done.outcomesOf e.1.identity ++ e.2 :: outcomesOf rest e.1.identity := by
    simp [outcomesOf]
  rw [hsplit, ← length_outcomesOf, List.getElem?_append_right (Nat.le_refl _), Nat.sub_self,
    List.getElem?_cons_zero]

end History

theorem replayed_history {τ : Type} (live : Transport τ) (done rest : History) (t : τ) :
    replayed (done ++ rest) live (done.map Prod.fst) (rest.map Prod.fst) t
      = (rest.map fun e => recalled e.2, t) := by
  induction rest generalizing done with
  | nil => rfl
  | cons e rest ih =>
    have hrest := ih (done ++ [e])
    rw [List.append_assoc, List.singleton_append, List.map_append, List.map_singleton] at hrest
    rw [List.map_cons, replayed, History.getElem?_outcomesOf]
    simp only [hrest, List.map_cons]

theorem Cache.holds_ofSnapshot (history : History) :
    (ofSnapshot (Snapshot.addAll ∅ history)).Holds history [] := by
  intro identity
  rw [recordsOf_ofSnapshot, Snapshot.find?_addAll, timesSent, List.countP_nil, List.drop_zero]
  rfl

namespace Page

variable {ι σ : Type} (p : Page σ) (inner : Transport ι) (i : ι) (recorded : List Request)

theorem log_replayed {τ : Type} (live : Transport τ) {s : Hydration τ}
    (h : s.cache.Holds (recorded.zip (inner.run recorded i).1) []) :
    ((Recorder.transport (Hydration.transport p live)).run recorded ⟨s, ∅⟩).2.log
      = Snapshot.addAll ∅ (recorded.zip (inner.run recorded i).1) := by
  have hlength := inner.length_run recorded i
  have hfirst := List.map_fst_zip (Nat.le_of_eq hlength.symm)
  have hsecond := List.map_snd_zip (Nat.le_of_eq hlength)
  have hrun := (Hydration.run_transport p live recorded h).1
  have hreplay := replayed_history live [] (recorded.zip (inner.run recorded i).1) s.live
  rw [List.map_nil, List.nil_append, hfirst] at hreplay
  rw [hreplay] at hrun
  have houtcomes : ((Hydration.transport p live).run recorded s).1
      = (inner.run recorded i).1.map recalled := by
    rw [congrArg Prod.fst hrun, ← hsecond, List.map_map, hsecond]
    rfl
  rw [Recorder.run_transport]
  dsimp only
  rw [houtcomes, Snapshot.addAll_recalled]

/-- A page into which a recording was rendered replays it, and a recording of the replay is the
recording. -/
theorem replays_recording (hinner : inner.Fits) (before behind : String)
    (hmatch : ScriptBlock.isMatchable p.settings.cache.scriptType = true)
    (hquote : '"' ∉ p.settings.cache.scriptType.toList)
    (hbefore : ScriptBlock.Unopened before.toList) :
    let recording := (Recorder.transport inner).run recorded ⟨i, ∅⟩
    let history := recorded.zip recording.1
    let markup := before ++
      ScriptBlock.render p.settings.cache.scriptType recording.2.log.render ++ behind
    ∃ cache, p.recordedRequests markup = .ok cache ∧
      ∀ (τ : Type) (live : Transport τ) (t : τ) (store : Store),
        (∀ requests,
          let hydrated := (Hydration.transport p live).run requests ⟨t, cache, store⟩
          (hydrated.1, hydrated.2.live) = replayed history live [] requests t ∧
          ((store.channel p.scheduler.channel).isOpen = true →
            (hydrated.2.store.channel p.scheduler.channel).queue
              = (store.channel p.scheduler.channel).queue ++
                  List.replicate requests.length .wake)) ∧
        ((Recorder.transport (Hydration.transport p live)).run recorded
          ⟨⟨t, cache, store⟩, ∅⟩).2.log = recording.2.log := by
  rw [Recorder.run_transport]
  dsimp only
  have hfits : (Snapshot.addAll ∅ (recorded.zip (inner.run recorded i).1)).Fits :=
    Snapshot.fits_addAll fun e he => hinner.run recorded i e.2 (List.of_mem_zip he).2
  refine ⟨_, Cache.ofPage_render behind hfits hmatch hquote hbefore, fun τ live t store => ⟨?_, ?_⟩⟩
  · intro requests
    obtain ⟨hrun, hraises⟩ := Hydration.run_transport p live requests
      (s := ⟨t, _, store⟩) (Cache.holds_ofSnapshot _)
    exact ⟨hrun, hraises.queue⟩
  · exact log_replayed p inner i recorded live (Cache.holds_ofSnapshot _)

def flaky : Transport Bool where
  send := fun _ up =>
    (if up then .ok ⟨200, ∅, "</script>"⟩ else .error (.failed "down"), !up)

theorem fits_flaky : flaky.Fits := by
  intro request up response h
  cases up with
  | true =>
    cases h
    decide
  | false => cases h

def silent : Transport Nat where
  send := fun _ n => (.error (.failed "offline"), n + 1)

def ping : Request := ⟨"GET", "/", ∅, ""⟩

def quietPage : Page Unit := (create Store.empty Settings.default Evaluator.paths).1

theorem replays_recording_flaky :
    let recorder := ((Recorder.transport flaky).run [ping, ping] ⟨true, ∅⟩).2
    let markup := "<p>" ++ ScriptBlock.render "text/wadehttp" recorder.log.render ++ "</p>"
    ∃ cache, quietPage.recordedRequests markup = .ok cache ∧
      let hydrated := (Hydration.transport quietPage silent).run [ping, ping, ping]
        ⟨0, cache, Store.empty⟩
      hydrated.1
          = [.ok ⟨200, ∅, "</script>"⟩, .error (.recorded "down"), .error (.failed "offline")] ∧
        hydrated.2.live = 1 ∧
        (hydrated.2.store.channel quietPage.scheduler.channel).queue = [.wake, .wake, .wake] := by
  obtain ⟨cache, hcache, hreplay⟩ := replays_recording quietPage flaky true [ping, ping] fits_flaky
    "<p>" "</p>" (by decide +kernel) (by decide) (by decide)
  have hrun := (hreplay Nat silent 0 Store.empty).1 [ping, ping, ping]
  have hreplayed :
      replayed ([ping, ping].zip ((Recorder.transport flaky).run [ping, ping] ⟨true, ∅⟩).1)
          silent [] [ping, ping, ping] 0
        = ([.ok ⟨200, ∅, "</script>"⟩, .error (.recorded "down"), .error (.failed "offline")],
            1) := by
    decide +kernel
  have hanswers := hrun.1.trans hreplayed
  exact ⟨cache, hcache, congrArg Prod.fst hanswers, congrArg Prod.snd hanswers, hrun.2 rfl⟩

end Page

end ReactivePage
