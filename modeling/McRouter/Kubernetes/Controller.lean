import McRouter.Kubernetes.Annotations
import McRouter.Common.Sort

/-!
# Discovered routes

`kubernetes/controller.go`: from a complete set of Services to a complete
set of discovered routes. The Services come out of a Go map or out of an
API list, in an order nobody chose; **the result does not depend on it**
(`buildDiscoveredRoutes_perm`).
-/

namespace McRouter

namespace Kubernetes

open Strings Unicode Netip Sorting

/-- `Options`. -/
structure Options where
  annotationPrefix : GoString
deriving DecidableEq

/-- `SkippedResource`. -/
structure SkippedResource where
  serviceName : GoString
  namespace_ : GoString
  host : GoString := []
  backend : GoString := []
  reason : SkipReason
  err : Option Err
deriving DecidableEq

/-- `routeCandidate`. -/
structure RouteCandidate where
  route : DiscoveredRoute
  serviceName : GoString
  namespace_ : GoString
deriving DecidableEq

/-- `Result`. -/
structure Result where
  routes : List DiscoveredRoute
  skipped : List SkippedResource
  duplicateHosts : List GoString
  skippedByReason : SkipReason → ℕ

/-- `errorString`. -/
def errorString : Option Err → GoString
  | none => []
  | some err => err.text

/-- `lessCandidate`. -/
def lessCandidate (left right : RouteCandidate) : Bool :=
  lessFields [(left.route.host, right.route.host), (left.route.backend, right.route.backend),
    (left.namespace_, right.namespace_), (left.serviceName, right.serviceName)]

/-- `lessSkipped`. -/
def lessSkipped (left right : SkippedResource) : Bool :=
  lessFields [(left.reason.text, right.reason.text), (left.host, right.host),
    (left.namespace_, right.namespace_), (left.serviceName, right.serviceName),
    (left.backend, right.backend), (errorString left.err, errorString right.err)]

/-- `sortedKeys` of the hosts put into a set one by one. -/
def sortedKeys (hosts : List GoString) : List GoString := sortStable less hosts.dedup

/-- The prefix `BuildDiscoveredRoutes` parses with. -/
def Options.prefixOrDefault (options : Options) : GoString :=
  if options.annotationPrefix = [] then defaultAnnotationPrefix else options.annotationPrefix

/-- The candidate a Service gives. -/
def candidateOf (annotationPrefix : GoString) (service : ServiceInput) : Option RouteCandidate :=
  match parseServiceAnnotations annotationPrefix service with
  | .ok route => some ⟨route, service.name, service.namespace_⟩
  | .error _ => none

/-- The entry for a Service whose annotations give no route. -/
def skippedOf (annotationPrefix : GoString) (service : ServiceInput) : Option SkippedResource :=
  match parseServiceAnnotations annotationPrefix service with
  | .ok _ => none
  | .error skip => some
      { serviceName := service.name, namespace_ := service.namespace_, reason := skip.reason,
        err := skip.err }

/-- The entry for a candidate whose host another candidate has too. -/
def RouteCandidate.duplicate (candidate : RouteCandidate) : SkippedResource where
  serviceName := candidate.serviceName
  namespace_ := candidate.namespace_
  host := candidate.route.host
  backend := candidate.route.backend
  reason := .duplicateHost
  err := some ⟨go "host " ++ quote candidate.route.host ++ go " is discovered more than once", []⟩

/-- `BuildDiscoveredRoutes`. -/
def buildDiscoveredRoutes (services : List ServiceInput) (options : Options) : Result :=
  let annotationPrefix := options.prefixOrDefault
  let candidates := sortStable lessCandidate (services.filterMap (candidateOf annotationPrefix))
  let hosts := candidates.map (·.route.host)
  let duplicates := candidates.filter fun c => 1 < hosts.count c.route.host
  let skipped := services.filterMap (skippedOf annotationPrefix) ++ duplicates.map (·.duplicate)
  { routes := (candidates.filter fun c => ¬ 1 < hosts.count c.route.host).map (·.route)
    skipped := sortStable lessSkipped skipped
    duplicateHosts := sortedKeys (duplicates.map (·.route.host))
    skippedByReason := fun reason => skipped.countP fun s => s.reason = reason }

/-! ## The sorting keys determine the entries -/

/-- The fields `lessCandidate` compares. -/
def RouteCandidate.fields (c : RouteCandidate) : List GoString :=
  [c.route.host, c.route.backend, c.namespace_, c.serviceName]

/-- The fields `lessSkipped` compares. -/
def SkippedResource.fields (s : SkippedResource) : List GoString :=
  [s.reason.text, s.host, s.namespace_, s.serviceName, s.backend, errorString s.err]

theorem lessCandidate_iff (a b : RouteCandidate) :
    lessCandidate a b = true ↔ a.fields.map key < b.fields.map key :=
  lessFields_zip a.fields b.fields rfl

theorem lessSkipped_iff (a b : SkippedResource) :
    lessSkipped a b = true ↔ a.fields.map key < b.fields.map key :=
  lessFields_zip a.fields b.fields rfl

theorem RouteCandidate.fields_injective {a b : RouteCandidate} (h : a.fields = b.fields) :
    a = b := by
  obtain ⟨⟨_, _⟩, _, _⟩ := a
  obtain ⟨⟨_, _⟩, _, _⟩ := b
  simp_all [RouteCandidate.fields]

/-- Every error of `Normalize` is `ErrInvalid` with a text. -/
theorem normalize_error {address : GoString} {err : Err}
    (h : HostAddr.normalize address = .error err) : ∃ why, err = HostAddr.invalid why := by
  have hlabel : ∀ label e, HostAddr.labelError label = some e → ∃ why, e = HostAddr.invalid why := by
    intro label e he
    unfold HostAddr.labelError at he
    split at he
    · exact ⟨_, (Option.some.inj he).symm⟩
    split at he
    · exact ⟨_, (Option.some.inj he).symm⟩
    split at he
    · exact ⟨_, (Option.some.inj he).symm⟩
    obtain ⟨c, -, hc⟩ := Option.map_eq_some_iff.mp he
    exact ⟨_, hc.symm⟩
  unfold HostAddr.normalize at h
  dsimp only at h
  split at h
  · exact ⟨_, (Except.error.inj h).symm⟩
  split at h
  · exact ⟨_, (Except.error.inj h).symm⟩
  split at h
  · exact ⟨_, (Except.error.inj h).symm⟩
  split at h
  · cases h
  split at h
  · rename_i e he
    obtain ⟨label, -, hl⟩ := List.exists_of_findSome?_eq_some he
    exact Except.error.inj h ▸ hlabel label e hl
  · cases h

/-- What the error of an entry can be, given its reason: the errors that
wrap something are those of the prefix and of `Normalize`. -/
def ErrOf (annotationPrefix : GoString) : SkipReason → Option Err → Prop
  | .disabled, err => err = none
  | .invalidPrefix, err => err = validateAnnotationPrefix annotationPrefix
  | .invalidHost, err => ∃ why, err = some (HostAddr.invalid why)
  | _, err => ∃ text, err = some ⟨text, []⟩

/-- Under one prefix the reason and the text are the whole error. -/
theorem ErrOf.eq {annotationPrefix : GoString} {reason : SkipReason} {err err' : Option Err}
    (h : ErrOf annotationPrefix reason err) (h' : ErrOf annotationPrefix reason err')
    (htext : errorString err = errorString err') : err = err' := by
  cases reason
  case disabled => exact h.trans h'.symm
  case invalidPrefix => exact h.trans h'.symm
  all_goals
    obtain ⟨t, rfl⟩ := h
    obtain ⟨t', rfl⟩ := h'
    simp_all [errorString, HostAddr.invalid, errorf]

theorem parseHostAndPort_errOf {annotationPrefix : GoString} {service : ServiceInput} {skip : Skip}
    (h : parseHostAndPort annotationPrefix service = .error skip) :
    ErrOf annotationPrefix skip.reason skip.err := by
  unfold parseHostAndPort at h
  split at h
  · exact Except.error.inj h ▸ ⟨_, rfl⟩
  split at h
  · rename_i e he
    obtain ⟨why, rfl⟩ := normalize_error he
    exact Except.error.inj h ▸ ⟨why, rfl⟩
  split at h
  · exact Except.error.inj h ▸ ⟨_, rfl⟩
  split at h
  · exact Except.error.inj h ▸ ⟨_, rfl⟩
  split at h
  · exact Except.error.inj h ▸ ⟨_, rfl⟩
  · cases h

theorem parseServiceAnnotations_errOf {annotationPrefix : GoString} {service : ServiceInput}
    {skip : Skip} (h : parseServiceAnnotations annotationPrefix service = .error skip) :
    ErrOf annotationPrefix skip.reason skip.err := by
  unfold parseServiceAnnotations at h
  split at h
  · rename_i e he
    exact Except.error.inj h ▸ he.symm
  split at h
  · exact Except.error.inj h ▸ rfl
  split at h
  · exact Except.error.inj h ▸ ⟨_, rfl⟩
  split at h
  · exact Except.error.inj h ▸ ⟨_, rfl⟩
  · exact parseHostAndPort_errOf h

/-- Entries with errors of that kind are determined by the compared fields. -/
theorem SkippedResource.fields_injective {annotationPrefix : GoString} {a b : SkippedResource}
    (ha : ErrOf annotationPrefix a.reason a.err) (hb : ErrOf annotationPrefix b.reason b.err)
    (h : a.fields = b.fields) : a = b := by
  simp only [fields, List.cons.injEq, and_true] at h
  obtain ⟨hreason, hhost, hns, hname, hbackend, herr⟩ := h
  have hreason := SkipReason.text_injective hreason
  have herr := (hreason ▸ ha).eq hb herr
  cases a
  cases b
  simp_all

/-! ## The order of the Services -/

variable {services services' : List ServiceInput}

theorem candidates_perm (annotationPrefix : GoString) (h : services.Perm services') :
    sortStable lessCandidate (services.filterMap (candidateOf annotationPrefix)) =
      sortStable lessCandidate (services'.filterMap (candidateOf annotationPrefix)) :=
  sortStable_eq_of_perm (fun c => c.fields.map key) lessCandidate_iff (h.filterMap _)
    fun _ _ _ _ hk => RouteCandidate.fields_injective (map_key_injective hk)

/-- Every entry that is sorted has an error its reason accounts for. -/
theorem skipped_errOf {annotationPrefix : GoString} {duplicates : List RouteCandidate}
    {s : SkippedResource}
    (hs : s ∈ services.filterMap (skippedOf annotationPrefix) ++ duplicates.map (·.duplicate)) :
    ErrOf annotationPrefix s.reason s.err := by
  rcases List.mem_append.mp hs with hs | hs
  · obtain ⟨service, -, hservice⟩ := List.mem_filterMap.mp hs
    unfold skippedOf at hservice
    split at hservice
    · cases hservice
    · rename_i skip hskip
      obtain rfl := Option.some.inj hservice
      exact parseServiceAnnotations_errOf hskip
  · obtain ⟨c, -, rfl⟩ := List.mem_map.mp hs
    exact ⟨_, rfl⟩

/-- **The order of the Services does not matter**: not to the routes, not
to the skipped entries with their errors, not to the counts. -/
theorem buildDiscoveredRoutes_perm (h : services.Perm services') (options : Options) :
    buildDiscoveredRoutes services options = buildDiscoveredRoutes services' options := by
  simp only [buildDiscoveredRoutes, candidates_perm options.prefixOrDefault h]
  -- everything but the entries of unusable Services is now the same on both sides
  generalize sortStable lessCandidate
    (services'.filterMap (candidateOf options.prefixOrDefault)) = candidates
  generalize candidates.filter
    (fun c => 1 < (candidates.map (·.route.host)).count c.route.host) = duplicates
  have hperm := (h.filterMap (skippedOf options.prefixOrDefault)).append_right
    (duplicates.map (·.duplicate))
  congr 1
  · exact sortStable_eq_of_perm (fun s => s.fields.map key) lessSkipped_iff hperm
      fun a ha b hb hk => SkippedResource.fields_injective (skipped_errOf ha) (skipped_errOf hb)
        (map_key_injective hk)
  · funext reason
    exact hperm.countP_eq _

end Kubernetes

end McRouter
