import McRouter.Kubernetes.Controller
import McRouter.Common.GoMap

/-!
# The Service watch

`kubernetes/watch_controller.go` and `client.go`. The controller lists the
Services of its namespace once, keeps them in a map from watch events, and
publishes the routes of the whole map after the list and after each event.

The map is an incremental copy of the cluster (`Tracks`), kept by each
event (`applyWatchEvent_tracks`); **what is published is what a fresh list
would give** (`watch_equals_relist`).
-/

namespace McRouter

namespace Kubernetes

open Strings Unicode

/-- The values of `corev1.ServiceType`. -/
inductive ServiceType where
  | clusterIP
  | nodePort
  | loadBalancer
  | externalName
deriving DecidableEq, Repr

/-- `corev1.ServicePort`, as far as it is read. -/
structure SpecPort where
  name : GoString
  port : Int32
deriving DecidableEq

/-- `corev1.Service`, as far as it is read. The API server admits no
namespace with a slash. -/
structure Service where
  name : GoString
  namespace_ : GoString
  annotations : GoMap GoString GoString
  type_ : ServiceType
  ports : List SpecPort
  namespace_noSlash : 47 ∉ namespace_

/-- What identifies a Service in a cluster. -/
def Service.id (svc : Service) : GoString × GoString := (svc.namespace_, svc.name)

/-- `ToServiceInput`. -/
def toServiceInput (svc : Service) : Option ServiceInput :=
  if svc.type_ = .externalName then none
  else some ⟨svc.name, svc.namespace_, svc.annotations,
    svc.ports.map fun port => ⟨port.name, port.port.toInt⟩⟩

/-- `ListServices`, of the items the API server returns. -/
def listServices (items : List Service) : List ServiceInput := items.filterMap toServiceInput

/-- `serviceKey`. -/
def serviceKey (namespace_ name : GoString) : GoString := namespace_ ++ go "/" ++ name

/-- `watch.EventType`. -/
inductive EventType where
  | added
  | modified
  | deleted
  | bookmark
  | error
deriving DecidableEq, Repr

/-- `watch.Event`; the object is `none` when it is not a Service. -/
structure WatchEvent where
  type_ : EventType
  object : Option Service

/-- `ServiceWatchController`. -/
structure ServiceWatchController where
  namespace_ : GoString
  options : Options
deriving DecidableEq

/-- `ErrServiceListFailed`. -/
def errServiceListFailed : Err := ⟨go "kubernetes service list failed", [.serviceListFailed]⟩
/-- `ErrServiceWatchClosed`. -/
def errServiceWatchClosed : Err := ⟨go "kubernetes service watch closed", [.serviceWatchClosed]⟩
/-- `ErrServiceWatchError`. -/
def errServiceWatchError : Err := ⟨go "kubernetes service watch error", [.serviceWatchError]⟩
/-- `ErrServiceWatchSetupFailed`. -/
def errServiceWatchSetupFailed : Err :=
  ⟨go "kubernetes service watch setup failed", [.serviceWatchSetupFailed]⟩

/-- The services the controller tracks. -/
abbrev Tracked := GoMap GoString ServiceInput

namespace ServiceWatchController

variable (c : ServiceWatchController)

/-- One item of the loop in `initialServices`. -/
def trackItem (services : Tracked) (svc : Service) : Tracked :=
  match toServiceInput svc with
  | some input => services.insert (serviceKey svc.namespace_ svc.name) input
  | none => services

/-- `initialServices`, of what the list call returns. -/
def initialServices (list : Except Err (List Service)) : Except Err Tracked :=
  match list with
  | .error err => .error (errorf (errServiceListFailed.text ++ go ": list services in namespace " ++
      quote c.namespace_ ++ go ": " ++ err.text) [errServiceListFailed, err])
  | .ok items => .ok (items.foldl trackItem ∅)

/-- What an error event is reported as. -/
def errorEvent : Err :=
  errorf (errServiceWatchError.text ++ go ": watch services in namespace " ++
    quote c.namespace_ ++ go " returned error event") [errServiceWatchError]

/-- `applyWatchEvent`: the error, if any, and the map afterwards. -/
def applyWatchEvent (services : Tracked) (event : WatchEvent) : Option Err × Tracked :=
  if event.type_ = .error then (some c.errorEvent, services)
  else match event.object with
    | none => (none, services)
    | some svc =>
      let key := serviceKey svc.namespace_ svc.name
      match event.type_ with
      | .added | .modified =>
        match toServiceInput svc with
        | some input => (none, services.insert key input)
        | none => (none, services.erase key)
      | .deleted => (none, services.erase key)
      | .bookmark | .error => (none, services)

/-- `updateSink`: the Result published. `order` is the order in which this
iteration visits the map. -/
def updateSink (order : List ServiceInput → List ServiceInput) (services : Tracked) : Result :=
  buildDiscoveredRoutes (order services.values) c.options

/-- What a round of the loop in `Run` receives. `closed` says whether the
context was done when the closed channel was noticed. -/
inductive Signal where
  | contextDone
  | closed (ctxErr : Bool)
  | event (e : WatchEvent)

/-- The loop of `Run`: what it publishes and what it returns, if it has
returned. The `n`-th iteration over the map visits it in order `order n`. -/
def serve (order : ℕ → List ServiceInput → List ServiceInput) :
    ℕ → Tracked → List Signal → List Result × Option (Option Err)
  | _, _, [] => ([], none)
  | _, _, .contextDone :: _ => ([], some none)
  | _, _, .closed ctxErr :: _ => ([], some (if ctxErr then none else
      some (errorf (errServiceWatchClosed.text ++ go ": watch services in namespace " ++
        quote c.namespace_ ++ go " closed") [errServiceWatchClosed])))
  | n, services, .event e :: signals =>
    match c.applyWatchEvent services e with
    | (some err, _) => ([], some (some err))
    | (none, services) =>
      let out := serve order (n + 1) services signals
      (c.updateSink (order n) services :: out.1, out.2)

/-- `Run`. `setup` is the error of the watch call, with whether the context
was done by then. -/
def run (order : ℕ → List ServiceInput → List ServiceInput) (list : Except Err (List Service))
    (setup : Option (Err × Bool)) (signals : List Signal) : List Result × Option (Option Err) :=
  match c.initialServices list with
  | .error err => ([], some (some err))
  | .ok services =>
    match setup with
    | some (err, ctxErr) => ([], some (if ctxErr then none else
        some (errorf (errServiceWatchSetupFailed.text ++ go ": watch services in namespace " ++
          quote c.namespace_ ++ go ": " ++ err.text) [errServiceWatchSetupFailed, err])))
    | none =>
      let out := c.serve order 1 services signals
      (c.updateSink (order 0) services :: out.1, out.2)

end ServiceWatchController

/-! ## The cluster -/

/-- A cluster state: **at most one Service of a name in a namespace.** -/
structure Cluster where
  services : List Service
  distinct : (services.map Service.id).Nodup

/-- What happens in the cluster, as far as a watch reports it. -/
inductive Change where
  | added (svc : Service)
  | modified (svc : Service)
  | deleted (svc : Service)
  | bookmark (object : Option Service)

/-- The event that reports a change. -/
def Change.event : Change → WatchEvent
  | added svc => ⟨.added, some svc⟩
  | modified svc => ⟨.modified, some svc⟩
  | deleted svc => ⟨.deleted, some svc⟩
  | bookmark object => ⟨.bookmark, object⟩

namespace Cluster

/-- The cluster without the Service identified like `svc`. -/
def remove (cluster : Cluster) (svc : Service) : Cluster where
  services := cluster.services.filter fun s => s.id ≠ svc.id
  distinct := cluster.distinct.sublist (List.filter_sublist.map _)

/-- The cluster with `svc`, in the place of any Service of its identity. -/
def put (cluster : Cluster) (svc : Service) : Cluster where
  services := svc :: (cluster.remove svc).services
  distinct := by
    refine List.nodup_cons.mpr ⟨fun h => ?_, (cluster.remove svc).distinct⟩
    obtain ⟨s, hs, hid⟩ := List.mem_map.mp h
    simp [remove, hid] at hs

/-- The cluster after a change. -/
def apply (cluster : Cluster) : Change → Cluster
  | .added svc | .modified svc => cluster.put svc
  | .deleted svc => cluster.remove svc
  | .bookmark _ => cluster

@[simp] theorem mem_remove {cluster : Cluster} {svc s : Service} :
    s ∈ (cluster.remove svc).services ↔ s ∈ cluster.services ∧ s.id ≠ svc.id := by
  simp [remove]

@[simp] theorem mem_put {cluster : Cluster} {svc s : Service} :
    s ∈ (cluster.put svc).services ↔ s = svc ∨ s ∈ cluster.services ∧ s.id ≠ svc.id := by
  simp [put]

end Cluster

/-! ## Tracking -/

/-- Before its first slash a key holds the namespace. -/
theorem serviceKey_injective {s s' : Service}
    (h : serviceKey s.namespace_ s.name = serviceKey s'.namespace_ s'.name) : s.id = s'.id := by
  have hslash : go "/" = [47] := by decide
  simp only [serviceKey, hslash, List.append_assoc, List.singleton_append] at h
  obtain ⟨hns, hname⟩ := append_sep_inj s.namespace_noSlash s'.namespace_noSlash h
  exact Prod.ext hns hname

/-- The key of an input is the key of the Service it was made of. -/
theorem toServiceInput_key {svc : Service} {input : ServiceInput}
    (h : toServiceInput svc = some input) :
    serviceKey input.namespace_ input.name = serviceKey svc.namespace_ svc.name := by
  unfold toServiceInput at h
  split at h
  · cases h
  · obtain rfl := Option.some.inj h
    rfl

/-- **The map holds the usable Services of the cluster, each under its own
key.** -/
def Tracks (services : Tracked) (present : List Service) : Prop :=
  ∀ key input, services.lookup key = some input ↔
    ∃ svc ∈ present, serviceKey svc.namespace_ svc.name = key ∧ toServiceInput svc = some input

namespace Tracks

variable {services : Tracked} {present present' : List Service}

/-- Leaving out what is under the key of `svc`. -/
theorem erase (h : Tracks services present) {svc : Service}
    (hmem : ∀ s, s ∈ present' ↔ s ∈ present ∧ s.id ≠ svc.id) :
    Tracks (services.erase (serviceKey svc.namespace_ svc.name)) present' := by
  intro key input
  by_cases hkey : key = serviceKey svc.namespace_ svc.name
  · subst hkey
    rw [AList.lookup_erase]
    constructor
    · intro hnone
      cases hnone
    · rintro ⟨s, hs, hk, -⟩
      exact absurd (serviceKey_injective hk) ((hmem s).mp hs).2
  · rw [AList.lookup_erase_ne hkey, h]
    constructor
    · rintro ⟨s, hs, rfl, hinput⟩
      refine ⟨s, (hmem s).mpr ⟨hs, fun hid => hkey ?_⟩, rfl, hinput⟩
      rw [Service.id, Service.id, Prod.mk.injEq] at hid
      rw [hid.1, hid.2]
    · rintro ⟨s, hs, hk, hinput⟩
      exact ⟨s, ((hmem s).mp hs).1, hk, hinput⟩

/-- One more Service, of an identity that is not there. -/
theorem cons (h : Tracks services present) {svc : Service}
    (hfresh : ∀ s ∈ present, s.id ≠ svc.id) (hmem : ∀ s, s ∈ present' ↔ s = svc ∨ s ∈ present) :
    Tracks (ServiceWatchController.trackItem services svc) present' := by
  have hold : ∀ key input, (∃ s ∈ present', serviceKey s.namespace_ s.name = key ∧
      toServiceInput s = some input) ↔ services.lookup key = some input ∨
        serviceKey svc.namespace_ svc.name = key ∧ toServiceInput svc = some input := by
    intro key input
    rw [h]
    constructor
    · rintro ⟨s, hs, hk, hinput⟩
      rcases (hmem s).mp hs with rfl | hs
      · exact Or.inr ⟨hk, hinput⟩
      · exact Or.inl ⟨s, hs, hk, hinput⟩
    · rintro (⟨s, hs, hk, hinput⟩ | ⟨hk, hinput⟩)
      · exact ⟨s, (hmem s).mpr (Or.inr hs), hk, hinput⟩
      · exact ⟨svc, (hmem svc).mpr (Or.inl rfl), hk, hinput⟩
  intro key input
  rw [hold, ServiceWatchController.trackItem]
  cases hsvc : toServiceInput svc with
  | none => simp
  | some input' =>
    by_cases hkey : key = serviceKey svc.namespace_ svc.name
    · subst hkey
      -- nothing was there under this key before
      have hnone : services.lookup (serviceKey svc.namespace_ svc.name) = none := by
        refine Option.eq_none_iff_forall_not_mem.mpr fun i hi => ?_
        obtain ⟨s, hs, hk, -⟩ := (h _ _).mp hi
        exact hfresh s hs (serviceKey_injective hk)
      simp [hnone]
    · have hkey' : serviceKey svc.namespace_ svc.name ≠ key := fun h => hkey h.symm
      simp [AList.lookup_insert_ne hkey, hkey']

/-- **The tracked inputs are those of a fresh list**, in some order. -/
theorem values_perm (h : Tracks services present) (hdistinct : (present.map Service.id).Nodup) :
    services.values.Perm (listServices present) := by
  have hvalues : services.values.Nodup := by
    refine List.Nodup.of_map (fun i : ServiceInput => serviceKey i.namespace_ i.name) ?_
    have hkeys : services.values.map (fun i : ServiceInput => serviceKey i.namespace_ i.name) =
        services.keys := by
      rw [GoMap.values, AList.keys, List.keys, List.map_map]
      refine List.map_congr_left fun e he => ?_
      obtain ⟨svc, -, hk, hinput⟩ := (h e.1 e.2).mp (GoMap.mem_entries.mp he)
      exact (toServiceInput_key hinput).trans hk
    rw [hkeys]
    exact services.keys_nodup
  have hlist : (listServices present).Nodup := by
    refine List.Nodup.of_map (fun i : ServiceInput => (i.namespace_, i.name)) ?_
    refine hdistinct.sublist ?_
    clear h hdistinct
    induction present with
    | nil => exact List.Sublist.slnil
    | cons svc rest ih =>
      rw [listServices, List.filterMap_cons, List.map_cons]
      unfold toServiceInput
      split_ifs
      · exact ih.cons _
      · exact ih.cons_cons _
  refine (List.perm_ext_iff_of_nodup hvalues hlist).mpr fun input => ?_
  rw [GoMap.mem_values, listServices, List.mem_filterMap]
  constructor
  · rintro ⟨key, hkey⟩
    obtain ⟨svc, hsvc, -, hinput⟩ := (h key input).mp hkey
    exact ⟨svc, hsvc, hinput⟩
  · rintro ⟨svc, hsvc, hinput⟩
    exact ⟨_, (h _ input).mpr ⟨svc, hsvc, rfl, hinput⟩⟩

end Tracks

namespace ServiceWatchController

variable (c : ServiceWatchController)

/-- **The list step.** -/
theorem initialServices_tracks {cluster : Cluster} {items : List Service}
    (h : items.Perm cluster.services) :
    ∃ services, c.initialServices (.ok items) = .ok services ∧
      Tracks services cluster.services := by
  refine ⟨_, rfl, ?_⟩
  -- the map after a part of the items tracks that part
  have hfold : ∀ (rest done : List Service) (services : Tracked), Tracks services done →
      ((done ++ rest).map Service.id).Nodup →
        Tracks (rest.foldl trackItem services) (done ++ rest) := by
    intro rest
    induction rest with
    | nil =>
      intro done services h _
      simpa using h
    | cons svc rest ih =>
      intro done services h hnodup
      have hnodup' : ((done ++ [svc] ++ rest).map Service.id).Nodup := by simpa using hnodup
      have hfresh : ∀ s ∈ done, s.id ≠ svc.id := by
        rw [List.map_append, List.nodup_append] at hnodup
        intro s hs
        exact hnodup.2.2 s.id (List.mem_map_of_mem hs) svc.id (by simp)
      have hstep : Tracks (trackItem services svc) (done ++ [svc]) :=
        h.cons hfresh fun s => by simp [or_comm]
      simpa using ih (done ++ [svc]) _ hstep hnodup'
  have hall := hfold items [] ∅ (fun _ _ => by simp) (by
    simpa using (h.map Service.id).nodup_iff.mpr cluster.distinct)
  intro key input
  simp only [hall key input, List.nil_append, h.mem_iff]

/-- **The event step.** A change is applied without error, and the map
tracks the changed cluster. -/
theorem applyWatchEvent_tracks {cluster : Cluster} {services : Tracked}
    (h : Tracks services cluster.services) (change : Change) :
    ∃ services', c.applyWatchEvent services change.event = (none, services') ∧
      Tracks services' (cluster.apply change).services := by
  have hput : ∀ svc, ∃ services', (match toServiceInput svc with
      | some input => (none, services.insert (serviceKey svc.namespace_ svc.name) input)
      | none => (none, services.erase (serviceKey svc.namespace_ svc.name)) :
        Option Err × Tracked) = (none, services') ∧
      Tracks services' (cluster.put svc).services := by
    intro svc
    have herase : Tracks (services.erase (serviceKey svc.namespace_ svc.name))
        (cluster.remove svc).services := h.erase fun s => Cluster.mem_remove
    have hcons : Tracks (trackItem (services.erase (serviceKey svc.namespace_ svc.name)) svc)
        (cluster.put svc).services :=
      herase.cons (fun s hs => (Cluster.mem_remove.mp hs).2) fun s => by simp
    rw [trackItem] at hcons
    cases hsvc : toServiceInput svc with
    | none => exact ⟨_, rfl, by simpa [hsvc] using hcons⟩
    | some input =>
      -- inserting writes over what erasing would have removed
      refine ⟨_, rfl, fun key input' => ?_⟩
      rw [hsvc] at hcons
      rw [← hcons key input']
      by_cases hkey : key = serviceKey svc.namespace_ svc.name
      · subst hkey
        simp
      · rw [AList.lookup_insert_ne hkey, AList.lookup_insert_ne hkey, AList.lookup_erase_ne hkey]
  cases change with
  | added svc => exact hput svc
  | modified svc => exact hput svc
  | deleted svc => exact ⟨_, rfl, h.erase fun s => Cluster.mem_remove⟩
  | bookmark object => cases object <;> exact ⟨_, rfl, h⟩

/-- What is published of a map that tracks the cluster is what a fresh list
of the cluster gives. -/
theorem updateSink_eq {cluster : Cluster} {services : Tracked} {listed : List Service}
    {order : List ServiceInput → List ServiceInput} (h : Tracks services cluster.services)
    (horder : ∀ l, (order l).Perm l) (hlisted : listed.Perm cluster.services) :
    c.updateSink order services = buildDiscoveredRoutes (listServices listed) c.options :=
  buildDiscoveredRoutes_perm ((horder _).trans
    ((h.values_perm cluster.distinct).trans (hlisted.symm.filterMap _))) _

/-- **The loop step, over a whole run.** From a map that tracks the cluster,
the `k`-th Result of the loop is that of a fresh list after `k + 1` changes,
and the loop has not returned. -/
theorem serve_changes {order : ℕ → List ServiceInput → List ServiceInput}
    (horder : ∀ n l, (order n l).Perm l) (rest : List Signal) (changes : List Change) :
    ∀ (n : ℕ) (cluster : Cluster) (services : Tracked), Tracks services cluster.services →
      ∃ (results : List Result) (services' : Tracked),
        Tracks services' (changes.foldl Cluster.apply cluster).services ∧
        c.serve order n services (changes.map (fun ch => .event ch.event) ++ rest) =
          (results ++ (c.serve order (n + changes.length) services' rest).1,
            (c.serve order (n + changes.length) services' rest).2) ∧
        results.length = changes.length ∧
        ∀ k < changes.length, ∀ listed : List Service,
          listed.Perm ((changes.take (k + 1)).foldl Cluster.apply cluster).services →
            results[k]? = some (buildDiscoveredRoutes (listServices listed) c.options) := by
  induction changes with
  | nil =>
    intro n cluster services h
    exact ⟨[], services, h, by simp, rfl, fun k hk => absurd hk (by simp)⟩
  | cons change changes ih =>
    intro n cluster services h
    obtain ⟨services₁, happly, h₁⟩ := c.applyWatchEvent_tracks h change
    obtain ⟨results, services', h', hserve, hlen, hresults⟩ :=
      ih (n + 1) (cluster.apply change) services₁ h₁
    refine ⟨c.updateSink (order n) services₁ :: results, services', h', ?_, by simp [hlen], ?_⟩
    · have hn : n + (change :: changes).length = n + 1 + changes.length := by
        simp only [List.length_cons]
        omega
      simp only [List.map_cons, List.cons_append, serve, happly, hserve, hn]
    · intro k hk listed hlisted
      cases k with
      | zero => exact congrArg some (c.updateSink_eq h₁ (horder n) hlisted)
      | succ k =>
        have hk' : k < changes.length := by
          simp only [List.length_cons] at hk
          omega
        exact hresults k hk' listed hlisted

/-- **Watch equals relist.** Start from the list of any cluster and let any
changes happen. Then in whatever order the map is visited, and in whatever
order a fresh list would return the Services, the Result published after
`k` changes is `BuildDiscoveredRoutes` of the fresh list after `k` changes.
An error event ends the run with an error, publishes nothing and leaves the
map as it was. -/
theorem watch_equals_relist (order : ℕ → List ServiceInput → List ServiceInput)
    (horder : ∀ n l, (order n l).Perm l) (cluster : Cluster) (items : List Service)
    (hitems : items.Perm cluster.services) (changes : List Change) :
    (∀ (rest : List Signal) (k : ℕ), k ≤ changes.length → ∀ listed : List Service,
      listed.Perm ((changes.take k).foldl Cluster.apply cluster).services →
      (c.run order (.ok items) none
          (changes.map (fun ch => .event ch.event) ++ rest)).1[k]? =
        some (buildDiscoveredRoutes (listServices listed) c.options)) ∧
    (∀ (object : Option Service) (services : Tracked),
      c.applyWatchEvent services ⟨.error, object⟩ = (some c.errorEvent, services)) ∧
    (∀ (object : Option Service) (rest : List Signal),
      let out := c.run order (.ok items) none
        (changes.map (fun ch => .event ch.event) ++ .event ⟨.error, object⟩ :: rest)
      out.2 = some (some c.errorEvent) ∧ out.1.length = changes.length + 1) := by
  obtain ⟨services, hinit, h⟩ := c.initialServices_tracks hitems
  refine ⟨fun rest k hk listed hlisted => ?_, fun _ _ => rfl,
    fun object rest => ?_⟩
  · obtain ⟨results, services', -, hserve, hlen, hresults⟩ :=
      c.serve_changes horder rest changes 1 cluster services h
    simp only [run, hinit, hserve]
    cases k with
    | zero => exact congrArg some (c.updateSink_eq h (horder 0) hlisted)
    | succ k =>
      rw [List.getElem?_cons_succ, List.getElem?_append_left (by omega)]
      exact hresults k hk listed hlisted
  · obtain ⟨results, services', -, hserve, hlen, -⟩ :=
      c.serve_changes horder (.event ⟨.error, object⟩ :: rest) changes 1 cluster services h
    simp [run, hinit, hserve, serve, applyWatchEvent, hlen]

/-- A Service that asks for `play.example.com`. -/
def lobby (type_ : ServiceType) : Service where
  name := go "lobby"
  namespace_ := go "games"
  annotations := List.toAList
    [⟨defaultAnnotationPrefix ++ go "/enabled", go "true"⟩,
      ⟨defaultAnnotationPrefix ++ go "/host", go "play.example.com"⟩,
      ⟨defaultAnnotationPrefix ++ go "/port", go "25565"⟩]
  type_ := type_
  ports := [⟨go "minecraft", 25565⟩]
  namespace_noSlash := by decide

/-- The Service turns into an ExternalName and back. -/
theorem watch_equals_relist_lobby :
    let c : ServiceWatchController := ⟨go "games", ⟨[]⟩⟩
    let published := (c.run (fun _ => List.reverse) (.ok [lobby .clusterIP]) none
      ([Change.modified (lobby .externalName), .modified (lobby .nodePort)].map
        (fun ch => .event ch.event) ++ [])).1
    (published[1]?.map (·.routes) = some []) ∧
    published[2]?.map (·.routes) =
      some [⟨go "play.example.com", go "lobby.games.svc.cluster.local:25565"⟩] := by
  intro c published
  have h := (watch_equals_relist c (fun _ => List.reverse) (fun _ l => l.reverse_perm)
    ⟨[lobby .clusterIP], by decide⟩ [lobby .clusterIP] (List.Perm.refl _)
    [.modified (lobby .externalName), .modified (lobby .nodePort)]).1 []
  have h1 := h 1 (by decide) _ (List.Perm.refl _)
  have h2 := h 2 (by decide) _ (List.Perm.refl _)
  exact ⟨by rw [h1]; decide +kernel, by rw [h2]; decide +kernel⟩

end ServiceWatchController

end Kubernetes

end McRouter
