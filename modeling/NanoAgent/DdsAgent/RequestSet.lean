import NanoAgent.DdsAgent.Operation
import NanoAgent.DdsAgent.Reader
import NanoAgent.Foundations.BufferPool
import NanoAgent.Foundations.Loop

/-!
# The request set of a reader

`newRequest` and `requestComplete` keep the list of the reads registered with a
reader. Every failure of `NDDSA_Reader_new_request` leads to one exit, which deletes
the query condition of the request at hand and returns the request to its pool. A
deletion that fails jumps back to the exit, so the exit is a loop that need not end.

The exit does not ask whether the request is linked in the list. It should be reached
neither with the request of another call, which is at hand when the read is already
registered, nor after the request was linked. `Accepts` is the condition under which a
call does neither and, for a call that unregisters, under which nothing fails once the
request is unlinked.
-/

namespace NanoAgent

namespace Reader

open Loop

variable {r r' : Reader} {env : Env} {rd : ℕ} {filter : Option String} {deleted : ℕ → Bool}

/-- The local variables of `NDDSA_Reader_new_request` at its label `done`. -/
structure RequestExit where
  retcode : Bool
  req : Option ReaderRequest
  firstRequest : Bool

/-- `NDDSA_Reader_new_request` up to its label `done`. -/
def newRequestBody (env : Env) (rd : ℕ) (filter : Option String) (r : Reader) :
    RequestExit × Reader :=
  if !env.ok (.dds .asDataReader rd) then (⟨false, none, false⟩, r)
  else
    match r.findRequestByRead rd with
    | some req => (⟨false, some req, false⟩, r)
    | none =>
        if !env.ok (.getBuffer .reader rd) then (⟨false, none, false⟩, r)
        else
          let addr := r.poolRequests.next
          let pool := r.poolRequests.take ()
          if filter.isSome && !env.ok (.dds .createQueryCondition rd) then
            (⟨false, some ⟨addr, rd, none⟩, false⟩, { r with poolRequests := pool })
          else
            let req : ReaderRequest := ⟨addr, rd, filter⟩
            let firstRequest := r.requests.isEmpty
            let r := { r with poolRequests := pool, requests := r.requests ++ [req] }
            if firstRequest then
              if env.ok (.dds .setListener rd) then
                (⟨true, some req, true⟩, { r with listening := true })
              else (⟨false, some req, true⟩, r)
            else (⟨true, some req, false⟩, r)

/-- The end of the exit: the listener is set again after a first request. -/
def resetExit (env : Env) (rd : ℕ) (x : RequestExit) (r : Reader) : Reader :=
  if x.firstRequest then { r with listening := r.listening || env.ok (.dds .resetListener rd) }
  else r

/-- The code of `NDDSA_Reader_new_request` from its label `done`. The number in the
state counts the deletions that failed, and `deleted k` answers the deletion after `k`
failures. -/
def newRequestExit (env : Env) (rd : ℕ) (deleted : ℕ → Bool) (x : RequestExit) :
    ℕ × Reader → (Bool × Reader) ⊕ (ℕ × Reader)
  | (k, r) =>
      if x.retcode then .inl (true, r)
      else
        match x.req with
        | none => .inl (false, resetExit env rd x r)
        | some req =>
            if req.queryCondition.isSome && !deleted k then .inr (k + 1, r)
            else
              .inl (false, resetExit env rd x
                { r with poolRequests := r.poolRequests.giveBack req.addr })

/-- A call for the request list of a reader. -/
inductive RequestCall
  | newRequest (env : Env) (rd : ℕ) (filter : Option String) (deleted : ℕ → Bool)
  | requestComplete (env : Env) (rd : ℕ)

/-- The call returns with the given result and leaves the given reader state. -/
inductive Returns : RequestCall → Reader → Bool → Reader → Prop
  | newRequest {env : Env} {rd : ℕ} {filter : Option String} {deleted : ℕ → Bool} {r r' : Reader}
      {ok : Bool} (n : ℕ)
      (h : runLoop (newRequestExit env rd deleted (newRequestBody env rd filter r).1) n
        (0, (newRequestBody env rd filter r).2) = some (ok, r')) :
      Returns (.newRequest env rd filter deleted) r ok r'
  | requestComplete {env : Env} {rd : ℕ} {r : Reader} :
      Returns (.requestComplete env rd) r (Reader.requestComplete env rd r).1.isSome
        (Reader.requestComplete env rd r).2

/-- The condition on a call under which the request set is kept. -/
def Accepts (r : Reader) : RequestCall → Prop
  | .newRequest env rd filter _ =>
      env.ok (.dds .asDataReader rd) = true →
        rd ∉ r.registered ∧
          (r.requests = [] → env.ok (.getBuffer .reader rd) = true →
            (filter.isSome = true → env.ok (.dds .createQueryCondition rd) = true) →
            env.ok (.dds .setListener rd) = true)
  | .requestComplete env rd =>
      env.ok (.dds .asDataReader rd) = true →
        ∀ q, r.findRequestByRead rd = some q →
          (q.queryCondition.isSome = true → env.ok (.dds .deleteReadCondition rd) = true) ∧
            (r.requests.erase q = [] → env.ok (.dds .resetListener rd) = true)

/-- The list holds live requests for distinct reads. -/
structure RequestSet (r : Reader) : Prop where
  live : ∀ q ∈ r.requests, r.poolRequests.Live q.addr
  distinct : r.registered.Nodup

/-- The call returns, keeps the list when it fails, and has the listener installed for
a list that is not empty when it succeeds. -/
structure KeepsRequests (c : RequestCall) (r : Reader) : Prop where
  returns : ∃ ok r', Returns c r ok r'
  failed : ∀ r', Returns c r false r' → r'.requests = r.requests
  listening : ∀ r', Returns c r true r' → (r'.listening = true ↔ r'.requests ≠ [])

/-- How `newRequest` arrives at its exit. -/
inductive Arrives (env : Env) (rd : ℕ) (filter : Option String) (r : Reader) :
    RequestExit × Reader → Prop
  | refused : (env.ok (.dds .asDataReader rd) = true → rd ∉ r.registered) →
      Arrives env rd filter r (⟨false, none, false⟩, r)
  | again {q : ReaderRequest} : env.ok (.dds .asDataReader rd) = true → q ∈ r.requests →
      q.read = rd → Arrives env rd filter r (⟨false, some q, false⟩, r)
  | unfiltered : rd ∉ r.registered → Arrives env rd filter r
      (⟨false, some ⟨r.poolRequests.next, rd, none⟩, false⟩,
        { r with poolRequests := r.poolRequests.take () })
  | unheard : env.ok (.dds .asDataReader rd) = true → rd ∉ r.registered →
      r.requests = [] → env.ok (.getBuffer .reader rd) = true →
      (filter.isSome = true → env.ok (.dds .createQueryCondition rd) = true) →
      env.ok (.dds .setListener rd) = false →
      Arrives env rd filter r
        (⟨false, some ⟨r.poolRequests.next, rd, filter⟩, true⟩,
          { r with poolRequests := r.poolRequests.take ()
                   requests := [⟨r.poolRequests.next, rd, filter⟩] })
  | registered : rd ∉ r.registered → Arrives env rd filter r
      (⟨true, some ⟨r.poolRequests.next, rd, filter⟩, r.requests.isEmpty⟩,
        { r with poolRequests := r.poolRequests.take ()
                 requests := r.requests ++ [⟨r.poolRequests.next, rd, filter⟩]
                 listening := r.listening || r.requests.isEmpty })

theorem findRequestByRead_eq_some {q : ReaderRequest} (h : r.findRequestByRead rd = some q) :
    q ∈ r.requests ∧ q.read = rd := by
  refine ⟨List.mem_of_find?_eq_some h, ?_⟩
  simpa using List.find?_some h

theorem not_mem_registered_of_find (h : r.findRequestByRead rd = none) : rd ∉ r.registered := by
  intro hmem
  obtain ⟨q, hq, hread⟩ := List.mem_map.1 hmem
  have hne := List.find?_eq_none.1 h q hq
  simp [hread] at hne

theorem newRequestBody_arrives (env : Env) (rd : ℕ) (filter : Option String) (r : Reader) :
    Arrives env rd filter r (newRequestBody env rd filter r) := by
  unfold newRequestBody
  cases has : env.ok (.dds .asDataReader rd) with
  | false =>
      apply Arrives.refused
      simp [has]
  | true =>
      cases hfind : r.findRequestByRead rd with
      | some q =>
          obtain ⟨hq, hread⟩ := findRequestByRead_eq_some hfind
          exact .again has hq hread
      | none =>
          have hnew := not_mem_registered_of_find hfind
          cases hbuf : env.ok (.getBuffer .reader rd) with
          | false => exact .refused fun _ => hnew
          | true =>
              by_cases hcond :
                  (filter.isSome && !env.ok (.dds .createQueryCondition rd)) = true
              · simp only [hcond]
                exact .unfiltered hnew
              · have hfilter : filter.isSome = true →
                    env.ok (.dds .createQueryCondition rd) = true := by
                  intro hsome
                  simpa [hsome] using hcond
                cases hempty : r.requests.isEmpty with
                | false =>
                    have harr : Arrives env rd filter r _ := .registered hnew
                    simpa [hcond, hempty] using harr
                | true =>
                    have hnil : r.requests = [] := List.isEmpty_iff.1 hempty
                    cases hset : env.ok (.dds .setListener rd) with
                    | true =>
                        have harr : Arrives env rd filter r _ := .registered hnew
                        simpa [hcond, hempty] using harr
                    | false =>
                        have harr := Arrives.unheard has hnew hnil hbuf hfilter hset
                        simpa [hcond, hempty, hnil] using harr

/-- What the exit does when it is left. -/
def exitResult (env : Env) (rd : ℕ) (x : RequestExit) (r : Reader) : Bool × Reader :=
  if x.retcode then (true, r)
  else
    (false, resetExit env rd x
      (match x.req with
        | none => r
        | some req => { r with poolRequests := r.poolRequests.giveBack req.addr }))

theorem exitResult_of_runLoop {x : RequestExit} {n k : ℕ} {res : Bool × Reader}
    (h : runLoop (newRequestExit env rd deleted x) n (k, r) = some res) :
    res = exitResult env rd x r := by
  induction n generalizing k with
  | zero => simp [runLoop] at h
  | succ n ih =>
      obtain ⟨retcode, req, first⟩ := x
      cases retcode with
      | true =>
          rw [runLoop_succ_of_leaves (r := (true, r)) (by simp [newRequestExit])] at h
          simpa [exitResult] using h.symm
      | false =>
          cases req with
          | none =>
              rw [runLoop_succ_of_leaves (r := _) (by simp [newRequestExit]; rfl)] at h
              simpa [exitResult] using h.symm
          | some req =>
              by_cases hdel : (req.queryCondition.isSome && !deleted k) = true
              · have hgo : GoesOn (newRequestExit env rd deleted ⟨false, some req, first⟩) (k, r)
                    (k + 1, r) := by
                  simp [GoesOn, newRequestExit, hdel]
                rw [runLoop_succ_of_goesOn hgo] at h
                exact ih h
              · rw [runLoop_succ_of_leaves (r := _)
                  (by simp [newRequestExit, hdel]; rfl)] at h
                simpa [exitResult] using h.symm

/-- The exit is left at once when there is no query condition to delete. -/
theorem exitResult_returns (deleted : ℕ → Bool) {x : RequestExit}
    (hbody : (newRequestBody env rd filter r).1 = x)
    (hx : x.retcode = false → ∀ q, x.req = some q → q.queryCondition = none) :
    Returns (.newRequest env rd filter deleted) r
      (exitResult env rd x (newRequestBody env rd filter r).2).1
      (exitResult env rd x (newRequestBody env rd filter r).2).2 := by
  apply Returns.newRequest 1
  rw [hbody]
  obtain ⟨retcode, req, first⟩ := x
  cases retcode with
  | true => simp [runLoop, newRequestExit, exitResult]
  | false =>
      cases req with
      | none => simp [runLoop, newRequestExit, exitResult]
      | some req => simp [runLoop, newRequestExit, exitResult, hx rfl req rfl]

theorem Returns.eq_exitResult {ok : Bool}
    (h : Returns (.newRequest env rd filter deleted) r ok r') :
    (ok, r') = exitResult env rd (newRequestBody env rd filter r).1
      (newRequestBody env rd filter r).2 := by
  cases h with
  | newRequest n h => exact exitResult_of_runLoop h

/-- A call has one result. -/
theorem Returns.unique {c : RequestCall} {ok ok₀ : Bool} {r₀ : Reader} (h : Returns c r ok r')
    (h₀ : Returns c r ok₀ r₀) : ok = ok₀ ∧ r' = r₀ := by
  cases c with
  | newRequest env rd filter deleted =>
      have heq := h.eq_exitResult.trans h₀.eq_exitResult.symm
      simpa using heq
  | requestComplete env rd =>
      cases h
      cases h₀
      exact ⟨rfl, rfl⟩

/-- The request set together with what its calls rely on: the addresses of the linked
requests are distinct, the pool returned only requests it handed out, and the listener
is installed while the list is not empty. -/
structure Kept (r : Reader) : Prop where
  requestSet : RequestSet r
  addrs : (r.requests.map (·.addr)).Nodup
  sound : r.poolRequests.Sound
  listening : r.listening = true ↔ r.requests ≠ []

theorem kept_initial (cache : List Sample) : Kept (.initial cache) where
  requestSet := by
    constructor <;> simp [initial, registered]
  addrs := by simp [initial]
  sound := by simp [BufferPool.Sound, initial, BufferPool.empty]
  listening := by simp [initial]

/-- A request that is taken and returned at once leaves the set alone. -/
theorem Kept.takeGiveBack (hr : Kept r) :
    Kept { r with
      poolRequests := (r.poolRequests.take ()).giveBack r.poolRequests.next } where
  requestSet := by
    refine ⟨fun q hq => ?_, hr.requestSet.distinct⟩
    have hlive := hr.requestSet.live q hq
    apply (hlive.take ()).giveBack
    exact Nat.ne_of_lt hlive.1
  addrs := hr.addrs
  sound := (hr.sound.take ()).giveBack (Nat.lt_succ_self _)
  listening := hr.listening

/-- A new request is linked. -/
theorem Kept.link (hr : Kept r) (hnew : rd ∉ r.registered) (filter : Option String) :
    Kept { r with
      poolRequests := r.poolRequests.take ()
      requests := r.requests ++ [⟨r.poolRequests.next, rd, filter⟩]
      listening := r.listening || r.requests.isEmpty } where
  requestSet := by
    constructor
    · intro q hq
      rcases List.mem_append.1 hq with hq | hq
      · exact (hr.requestSet.live q hq).take ()
      · rw [List.mem_singleton.1 hq]
        exact hr.sound.live_take ()
    · rw [registered, List.map_append]
      apply List.nodup_append.2
      refine ⟨hr.requestSet.distinct, by simp, ?_⟩
      intro x hx y hy
      simp only [List.map_cons, List.map_nil, List.mem_singleton] at hy
      rintro rfl
      exact hnew (hy ▸ hx)
  addrs := by
    rw [List.map_append]
    apply List.nodup_append.2
    refine ⟨hr.addrs, by simp, ?_⟩
    intro x hx y hy
    obtain ⟨q, hq, rfl⟩ := List.mem_map.1 hx
    simp only [List.map_cons, List.map_nil, List.mem_singleton] at hy
    have hlt := (hr.requestSet.live q hq).1
    omega
  sound := hr.sound.take ()
  listening := by
    simp only [Bool.or_eq_true, hr.listening, List.isEmpty_iff, ne_eq, List.append_eq_nil_iff,
      List.cons_ne_self, and_false, not_false_eq_true, iff_true]
    exact (Classical.em (r.requests = [])).symm

/-- A request is unlinked and returned. -/
theorem Kept.unlink (hr : Kept r) {q : ReaderRequest} (hq : q ∈ r.requests) :
    Kept { r with
      requests := r.requests.erase q
      poolRequests := r.poolRequests.giveBack q.addr
      listening := r.listening && !(r.requests.erase q).isEmpty } where
  requestSet := by
    have hnodup : r.requests.Nodup := hr.addrs.of_map _
    constructor
    · intro q' hq'
      obtain ⟨hne, hmem⟩ := hnodup.mem_erase_iff.1 hq'
      apply (hr.requestSet.live q' hmem).giveBack
      intro heq
      exact hne (List.inj_on_of_nodup_map hr.addrs hmem hq heq)
    · exact hr.requestSet.distinct.sublist (List.erase_sublist.map _)
  addrs := hr.addrs.sublist (List.erase_sublist.map _)
  sound := hr.sound.giveBack (hr.requestSet.live q hq).1
  listening := by
    have hne : r.requests ≠ [] := List.ne_nil_of_mem hq
    simp [hr.listening, hne]

/-- A call that returns as given keeps the request set. -/
theorem Returns.keeps {c : RequestCall} {ok : Bool} (h : Returns c r ok r') (hr : Kept r')
    (hfail : ok = false → r'.requests = r.requests) :
    KeepsRequests c r ∧ ∀ ok r', Returns c r ok r' → Kept r' := by
  constructor
  · refine ⟨⟨ok, r', h⟩, ?_, ?_⟩
    · intro r₁ h₁
      obtain ⟨hok, rfl⟩ := h₁.unique h
      exact hfail hok.symm
    · intro r₁ h₁
      obtain ⟨-, rfl⟩ := h₁.unique h
      exact hr.listening
  · intro ok₁ r₁ h₁
    obtain ⟨-, rfl⟩ := h₁.unique h
    exact hr

theorem Kept.newRequest (hr : Kept r) (hacc : Accepts r (.newRequest env rd filter deleted)) :
    KeepsRequests (.newRequest env rd filter deleted) r ∧
      ∀ ok r', Returns (.newRequest env rd filter deleted) r ok r' → Kept r' := by
  have harr := newRequestBody_arrives env rd filter r
  have hreturns : ∀ x, (newRequestBody env rd filter r).1 = x → _ → _ := fun x hx =>
    exitResult_returns deleted hx
  generalize newRequestBody env rd filter r = b at harr hreturns
  cases harr with
  | refused _ =>
      have h := hreturns _ rfl (by simp)
      exact h.keeps hr fun _ => rfl
  | again has hq hread =>
      have hmem := List.mem_map.2 ⟨_, hq, hread⟩
      exact absurd hmem (hacc has).1
  | unfiltered _ =>
      have h := hreturns _ rfl (by simp)
      exact h.keeps hr.takeGiveBack fun _ => rfl
  | unheard has _ hnil hbuf hfilter hset =>
      have hyes := (hacc has).2 hnil hbuf hfilter
      rw [hset] at hyes
      cases hyes
  | registered hnew =>
      have h := hreturns _ rfl (by simp)
      exact h.keeps (hr.link hnew filter) (by simp [exitResult])

/-- What `requestComplete` does with a request it finds. -/
theorem requestComplete_found {q : ReaderRequest}
    (has : env.ok (.dds .asDataReader rd) = true) (hfind : r.findRequestByRead rd = some q) :
    requestComplete env rd r =
      if !q.queryCondition.isSome || env.ok (.dds .deleteReadCondition rd) then
        if (r.requests.erase q).isEmpty then
          if env.ok (.dds .resetListener rd) then
            (some (), { r with
              requests := r.requests.erase q
              poolRequests := r.poolRequests.giveBack q.addr
              listening := false })
          else
            (none, { r with
              requests := r.requests.erase q
              poolRequests := r.poolRequests.giveBack q.addr })
        else
          (some (), { r with
            requests := r.requests.erase q
            poolRequests := r.poolRequests.giveBack q.addr })
      else (none, { r with requests := r.requests.erase q }) := by
  unfold requestComplete
  simp only [Prog.onlyIf_ensure, has, Prog.ensure_true_bind_apply, Prog.read_bind_apply, hfind]
  rw [Prog.bind_apply]
  simp only [Prog.require_apply, Prog.modify_bind_apply]
  cases !q.queryCondition.isSome || env.ok (.dds .deleteReadCondition rd) with
  | false => simp
  | true =>
      simp only [Prog.ensure_true_bind_apply, Prog.modify_bind_apply, Prog.read_bind_apply]
      cases (r.requests.erase q).isEmpty with
      | false => simp
      | true => cases env.ok (.dds .resetListener rd) <;> simp

/-- What `requestComplete` does when it is accepted. -/
theorem requestComplete_of_accepts (hacc : Accepts r (.requestComplete env rd)) :
    requestComplete env rd r = (none, r) ∨
      ∃ q ∈ r.requests, requestComplete env rd r =
        (some (), { r with
          requests := r.requests.erase q
          poolRequests := r.poolRequests.giveBack q.addr
          listening := r.listening && !(r.requests.erase q).isEmpty }) := by
  cases has : env.ok (.dds .asDataReader rd) with
  | false =>
      left
      simp [requestComplete, has]
  | true =>
      cases hfind : r.findRequestByRead rd with
      | none =>
          left
          simp [requestComplete, has, Prog.ensure, Prog.bind_apply, hfind]
      | some q =>
          right
          obtain ⟨hdel, hreset⟩ := hacc has q hfind
          refine ⟨q, (findRequestByRead_eq_some hfind).1, ?_⟩
          have hcond : (!q.queryCondition.isSome ||
              env.ok (.dds .deleteReadCondition rd)) = true := by
            cases hsome : q.queryCondition.isSome with
            | false => rfl
            | true => simp [hdel hsome]
          rw [requestComplete_found has hfind, if_pos hcond]
          cases hempty : (r.requests.erase q).isEmpty with
          | false => simp
          | true => simp [hreset (List.isEmpty_iff.1 hempty)]

theorem Kept.requestComplete (hr : Kept r) (hacc : Accepts r (.requestComplete env rd)) :
    KeepsRequests (.requestComplete env rd) r ∧
      ∀ ok r', Returns (.requestComplete env rd) r ok r' → Kept r' := by
  have hreturns : Returns (.requestComplete env rd) r _ _ := .requestComplete
  rcases requestComplete_of_accepts hacc with heq | ⟨q, hq, heq⟩
  · rw [heq] at hreturns
    exact hreturns.keeps hr fun _ => rfl
  · rw [heq] at hreturns
    exact hreturns.keeps (hr.unlink hq) (by simp)

/-- An accepted call keeps the request set. -/
theorem Kept.call (hr : Kept r) {c : RequestCall} (hacc : Accepts r c) :
    KeepsRequests c r ∧ ∀ ok r', Returns c r ok r' → Kept r' := by
  cases c with
  | newRequest env rd filter deleted => exact hr.newRequest hacc
  | requestComplete env rd => exact hr.requestComplete hacc

/-- Once the request is found, the call succeeds only when it is accepted, and the request
is unlinked in any case. -/
theorem requestComplete_unlinks (env : Env) {q : ReaderRequest}
    (has : env.ok (.dds .asDataReader rd) = true) (hfind : r.findRequestByRead rd = some q) :
    (requestComplete env rd r).2.requests = r.requests.erase q ∧
      ((requestComplete env rd r).1.isSome = true →
        (q.queryCondition.isSome = true → env.ok (.dds .deleteReadCondition rd) = true) ∧
          (r.requests.erase q = [] → env.ok (.dds .resetListener rd) = true)) := by
  rw [requestComplete_found has hfind]
  split
  · rename_i hcond
    have hdel : q.queryCondition.isSome = true →
        env.ok (.dds .deleteReadCondition rd) = true := by
      intro hsome
      simpa [hsome] using hcond
    split
    · split
      · rename_i hreset
        exact ⟨rfl, fun _ => ⟨hdel, fun _ => hreset⟩⟩
      · exact ⟨rfl, by simp⟩
    · rename_i hempty
      exact ⟨rfl, fun _ => ⟨hdel, fun hnil => absurd (List.isEmpty_iff.2 hnil) hempty⟩⟩
  · exact ⟨rfl, by simp⟩

/-- A call that keeps the request set is accepted. -/
theorem accepts_of_keeps {c : RequestCall} (h : KeepsRequests c r)
    (hset : ∀ ok r', Returns c r ok r' → RequestSet r') : Accepts r c := by
  cases c with
  | newRequest env rd filter deleted =>
      intro has
      obtain ⟨ok, r', hret⟩ := h.returns
      have hexit := hret.eq_exitResult
      constructor
      · intro hmem
        cases hfind : r.findRequestByRead rd with
        | none => exact not_mem_registered_of_find hfind hmem
        | some q =>
            simp only [newRequestBody, has, hfind, exitResult, resetExit] at hexit
            obtain ⟨-, rfl⟩ := hexit
            have hlive := (hset _ _ hret).live q (findRequestByRead_eq_some hfind).1
            exact ((BufferPool.live_giveBack_iff _ _ _).1 hlive).2 rfl
      · intro hnil hbuf hfilter
        cases hlisten : env.ok (.dds .setListener rd) with
        | true => rfl
        | false =>
            have hfind : r.findRequestByRead rd = none := by
              simp [findRequestByRead, hnil]
            have hcond : (filter.isSome && !env.ok (.dds .createQueryCondition rd)) = false := by
              cases hsome : filter.isSome with
              | false => rfl
              | true => simp [hfilter hsome]
            simp [newRequestBody, has, hfind, hbuf, hcond, hnil, hlisten, exitResult,
              resetExit] at hexit
            obtain ⟨rfl, rfl⟩ := hexit
            have hsame := h.failed _ hret
            simp [hnil] at hsame
  | requestComplete env rd =>
      intro has q hfind
      obtain ⟨hrequests, hsome⟩ := requestComplete_unlinks env has hfind
      apply hsome
      have hret : Returns (.requestComplete env rd) r _ _ := .requestComplete
      cases hok : (Reader.requestComplete env rd r).1.isSome with
      | true => rfl
      | false =>
          rw [hok] at hret
          have hsame := h.failed _ hret
          rw [hrequests] at hsame
          have hlen := List.length_erase_of_mem (findRequestByRead_eq_some hfind).1
          have hpos := List.length_pos_of_mem (findRequestByRead_eq_some hfind).1
          rw [hsame] at hlen
          omega

/-- The reader states reached by calls that meet the condition. -/
inductive ReachedBy (ok : Reader → RequestCall → Prop) : Reader → Prop
  | initial (cache : List Sample) : ReachedBy ok (.initial cache)
  | call {r r' : Reader} {c : RequestCall} {res : Bool} :
      ReachedBy ok r → ok r c → Returns c r res r' → ReachedBy ok r'

theorem ReachedBy.kept (h : ReachedBy Accepts r) : Kept r := by
  induction h with
  | initial cache => exact kept_initial cache
  | call _ hacc hret ih => exact (ih.call hacc).2 _ _ hret

/-- After accepted calls the list holds live requests for distinct reads, and the calls
that return and keep the request set are the accepted ones. -/
theorem requestSet_of_reachedBy (h : ReachedBy Accepts r) :
    RequestSet r ∧ ∀ c, Accepts r c ↔
      KeepsRequests c r ∧ ∀ ok r', Returns c r ok r' → RequestSet r' := by
  refine ⟨h.kept.requestSet, fun c => ⟨fun hacc => ?_, ?_⟩⟩
  · obtain ⟨hkeeps, hkept⟩ := h.kept.call hacc
    exact ⟨hkeeps, fun ok r' hret => (hkept ok r' hret).requestSet⟩
  · rintro ⟨hkeeps, hset⟩
    exact accepts_of_keeps hkeeps hset

/-- The answers of a DDS that accepts everything. -/
def willingEnv : Env := .obliging (.one ⟨12, .dataReader, .guid 3, 11, 13⟩)

/-- A reader with the reads 1 and 2. -/
def doubleReader : Reader :=
  (newRequestBody willingEnv 2 (some "x > 3") (newRequestBody willingEnv 1 none (.initial [])).2).2

/-- The reader after the first read is unregistered. -/
def relievedReader : Reader := (requestComplete willingEnv 1 doubleReader).2

theorem returns_of_registers (deleted : ℕ → Bool) {q : ReaderRequest} {first : Bool}
    (hq : (newRequestBody willingEnv rd filter r).1 = ⟨true, some q, first⟩) :
    Returns (.newRequest willingEnv rd filter deleted) r true
      (newRequestBody willingEnv rd filter r).2 := by
  simpa [exitResult] using exitResult_returns deleted hq (by simp)

theorem relievedReader_reachedBy : ReachedBy Accepts relievedReader := by
  have hone : ReachedBy Accepts (newRequestBody willingEnv 1 none (.initial [])).2 := by
    refine .call (.initial []) ?_ (returns_of_registers (fun _ => true) rfl)
    exact fun _ => ⟨by decide, fun _ _ _ => rfl⟩
  have htwo : ReachedBy Accepts doubleReader := by
    refine .call hone ?_ (returns_of_registers (fun _ => true) rfl)
    exact fun _ => ⟨by decide, fun _ _ _ => rfl⟩
  refine .call htwo ?_ .requestComplete
  exact fun _ q _ => ⟨fun _ => rfl, fun _ => rfl⟩

/-- The request of the second read is left. -/
theorem requestSet_of_reachedBy_relievedReader :
    ReachedBy Accepts relievedReader ∧ relievedReader.registered = [2] ∧
      RequestSet relievedReader :=
  ⟨relievedReader_reachedBy, by decide, (requestSet_of_reachedBy relievedReader_reachedBy).1⟩

/-- The answers of a DDS that does not accept the listener. -/
def deafEnv : Env :=
  { willingEnv with ok := fun c => c != .dds .setListener 1 }

/-- The listener is not accepted for the first request: the call fails, and the request
that was returned to its pool stays in the list. -/
theorem not_keepsRequests_of_deaf :
    ¬ ∀ r, ReachedBy (fun _ _ => True) r → RequestSet r ∧ ∀ c, KeepsRequests c r := by
  intro h
  have hret : Returns (.newRequest deafEnv 1 none fun _ => true) (.initial []) _ _ :=
    exitResult_returns _ rfl (by decide)
  have hset := (h _ (.call (.initial []) trivial hret)).1
  exact absurd (hset.live ⟨0, 1, none⟩ (by decide)) (by decide)

end Reader

end NanoAgent
