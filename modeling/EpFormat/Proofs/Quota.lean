import EpFormat.Proofs.Gates
/-!
# Quota — how many requests of an address are let through

The visits hold one entry for each request that came to the quotas, so that the count of an address at an endpoint is the
number of its requests that came there (`count_afterAll`).  From that the fate of a request in a run is known: the first
five of an address to an endpoint for formatting are let through, all others are turned away, and what other addresses send
makes no difference (`quotas_isolate`).
-/
namespace EpFormat.Service

variable {settings : Settings} {address : Text} {e : Endpoint}

/-! ## What a request adds to the visits -/

/-- Whether a request of an address comes to the quotas of an endpoint. -/
def Request.comesTo (settings : Settings) (address : Text) (e : Endpoint) (req : Request) : Bool :=
  match req.route settings with
  | .ok reached => req.address == address && reached == e
  | .error _ => false

theorem Request.comesTo_iff {req : Request} :
    req.comesTo settings address e = true ↔ req.address = address ∧ req.route settings = .ok e := by
  rw [comesTo]
  cases hroute : req.route settings with
  | error r => simp
  | ok reached => simp

theorem Visits.count_after (visits : Visits) (req : Request) :
    (visits.after settings req).count (address, e)
      = visits.count (address, e) + if req.comesTo settings address e then 1 else 0 := by
  rw [Visits.after, Request.comesTo]
  cases hroute : req.route settings with
  | error r => rfl
  | ok reached => simp [List.count_cons]

def Visits.afterAll (settings : Settings) (visits : Visits) (requests : List (Worker × Request)) : Visits :=
  requests.foldl (fun visits x => visits.after settings x.2) visits

/-- **The visits count what came to the quotas.** -/
theorem Visits.count_afterAll (visits : Visits) (requests : List (Worker × Request)) :
    (visits.afterAll settings requests).count (address, e)
      = visits.count (address, e) + requests.countP (fun x => x.2.comesTo settings address e) := by
  induction requests generalizing visits with
  | nil => rfl
  | cons x requests ih =>
    rw [afterAll, List.foldl_cons]
    refine (ih _).trans ?_
    rw [count_after, List.countP_cons]
    omega

theorem serve_append (visits : Visits) (before later : List (Worker × Request)) :
    serve settings visits (before ++ later)
      = serve settings visits before ++ serve settings (visits.afterAll settings before) later := by
  induction before generalizing visits with
  | nil => rfl
  | cons x before ih => exact congrArg _ (ih _)

theorem length_serve (visits : Visits) (requests : List (Worker × Request)) :
    (serve settings visits requests).length = requests.length := by
  induction requests generalizing visits with
  | nil => rfl
  | cons x requests ih => exact congrArg _ (ih _)

/-! ## Who is let through -/

/-- The address and the endpoint of each request that is let through the quotas. -/
def passed (settings : Settings) : Visits → List (Worker × Request) → Visits
  | _, [] => []
  | visits, (_, req) :: rest =>
    match req.entry settings visits with
    | .ok e => (req.address, e) :: passed settings (visits.after settings req) rest
    | .error _ => passed settings (visits.after settings req) rest

theorem Request.entry_of_comesTo {req : Request} (h : req.comesTo settings address e = true) (visits : Visits) :
    req.entry settings visits
      = if visits.admits address e then .ok e else .error Fault.rateLimited.response := by
  obtain ⟨rfl, hroute⟩ := comesTo_iff.1 h
  rw [entry, hroute]

theorem Request.comesTo_of_entry {req : Request} {visits : Visits} (h : req.entry settings visits = .ok e) :
    req.comesTo settings req.address e = true := by
  rw [entry] at h
  cases hroute : req.route settings with
  | error r => rw [hroute] at h; cases h
  | ok reached =>
    rw [hroute] at h
    simp only at h
    split at h
    · exact comesTo_iff.2 ⟨rfl, hroute.trans h⟩
    · cases h

theorem Visits.admits_iff {q : Nat} (hq : e.quotas = [q]) (visits : Visits) :
    visits.admits address e = true ↔ visits.count (address, e) < q := by
  simp [admits, hq]

/-- **As many requests are let through as the quota leaves room for.** -/
theorem count_passed {q : Nat} (hq : e.quotas = [q]) (visits : Visits) (requests : List (Worker × Request)) :
    (passed settings visits requests).count (address, e)
      = min (q - visits.count (address, e)) (requests.countP (fun x => x.2.comesTo settings address e)) := by
  induction requests generalizing visits with
  | nil => simp [passed]
  | cons x requests ih =>
    obtain ⟨worker, req⟩ := x
    -- The room that is left shrinks with every request that comes, whether it is let through or not.
    have hlater := ih (visits.after settings req)
    rw [Visits.count_after] at hlater
    rw [passed, List.countP_cons]
    by_cases hcomes : req.comesTo settings address e = true
    · rw [if_pos hcomes] at hlater ⊢
      rw [req.entry_of_comesTo hcomes]
      by_cases hroom : visits.count (address, e) < q
      · rw [if_pos ((Visits.admits_iff hq visits).2 hroom), (Request.comesTo_iff.1 hcomes).1]
        simp only [List.count_cons_self, hlater]
        omega
      · rw [if_neg (mt (Visits.admits_iff hq visits).1 hroom)]
        simp only [hlater]
        omega
    · rw [if_neg hcomes] at hlater ⊢
      cases hentry : req.entry settings visits with
      | error r => exact hlater
      | ok reached =>
        have hother : (req.address, reached) ≠ (address, e) := by
          rintro h
          obtain ⟨rfl, rfl⟩ := Prod.mk.inj h
          exact hcomes (Request.comesTo_of_entry hentry)
        simp only [List.count_cons_of_ne hother]
        exact hlater

/-- **The answer to a request in a run** is the one that its endpoint gives, or that it came too often. -/
theorem answer_in_run {q : Nat} (hq : e.quotas = [q]) (before : List (Worker × Request)) (worker : Worker) {req : Request}
    (h : req.comesTo settings address e = true) (later : List (Worker × Request)) :
    (serve settings [] (before ++ (worker, req) :: later))[before.length]? = some (
      if before.countP (fun x => x.2.comesTo settings address e) < q then (Task.ofEndpoint settings e req).perform worker
      else Fault.rateLimited.response) := by
  have hcount : (Visits.afterAll settings [] before).count (address, e)
      = before.countP (fun x => x.2.comesTo settings address e) := by
    rw [Visits.count_afterAll, List.count_nil, Nat.zero_add]
  rw [serve_append, List.getElem?_append_right (Nat.le_of_eq (length_serve [] before)), length_serve, Nat.sub_self, serve,
    handle, List.getElem?_cons_zero, Request.task, req.entry_of_comesTo h]
  by_cases hroom : before.countP (fun x => x.2.comesTo settings address e) < q
  · rw [if_pos hroom, if_pos ((Visits.admits_iff hq _).2 (hcount ▸ hroom))]
  · rw [if_neg hroom, if_neg (fun ha => hroom (hcount ▸ (Visits.admits_iff hq _).1 ha))]
    rfl

/-! ## One address and the others -/

theorem Request.task_congr {req : Request} {visits others : Visits}
    (h : ∀ e, visits.count (req.address, e) = others.count (req.address, e)) :
    req.task settings visits = req.task settings others := by
  have hadmits : ∀ e, visits.admits req.address e = others.admits req.address e := fun e => by
    rw [Visits.admits, Visits.admits, h e]
  rw [task, task, entry, entry]
  cases hroute : req.route settings with
  | error r => rfl
  | ok e => simp only [hadmits]

/-- **The answers to the requests of one address are those that they have without the others.** -/
theorem serve_filter (requests : List (Worker × Request)) {visits others : Visits}
    (h : ∀ e, visits.count (address, e) = others.count (address, e)) :
    ((requests.zip (serve settings visits requests)).filter (fun x => x.1.2.address == address)).map (·.2)
      = serve settings others (requests.filter (fun x => x.2.address == address)) := by
  induction requests generalizing visits others with
  | nil => rfl
  | cons x requests ih =>
    obtain ⟨worker, req⟩ := x
    rw [serve, handle, List.zip_cons_cons, List.filter_cons, List.filter_cons]
    by_cases hmine : req.address = address
    · subst hmine
      simp only [beq_self_eq_true, if_true, List.map_cons]
      rw [serve, handle, Request.task_congr h]
      exact congrArg _ (ih (fun e => by rw [Visits.count_after, Visits.count_after, h e]))
    · simp only [beq_iff_eq, hmine, if_false]
      -- A request of another address is counted in the run with all of them only, and not for this one.
      refine ih (fun e => ?_)
      have hcomes : ¬ req.comesTo settings address e = true := fun hc => hmine (Request.comesTo_iff.1 hc).1
      rw [Visits.count_after, if_neg hcomes, Nat.add_zero, h e]

/-! ## The endpoints that format -/

/-- Whether a request is a `POST` of an address to a path that comes as far as to the quotas. -/
def Request.arrives (settings : Settings) (address path : Text) (req : Request) : Bool :=
  req.address == address && req.target.path == path && req.method == txt "POST" && (settings.debug || req.isSecure)

theorem Request.arrives_eq {path : Text} (h : (e, path) ∈ formattingPaths) (req : Request) :
    req.arrives settings address path = req.comesTo settings address e := by
  obtain ⟨hpath, hmethods, -⟩ := formattingPaths_spec h
  rw [Bool.eq_iff_iff, comesTo_iff, route_eq_ok_iff, hpath, hmethods, List.mem_singleton, arrives]
  simp only [Bool.and_eq_true, beq_iff_eq]
  tauto

end EpFormat.Service
