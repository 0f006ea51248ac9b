import McRouter.Config.Validate

/-!
# Service annotations

`kubernetes/annotations.go`: what a Service asks for in its annotations,
read on its own. A Service that asks for nothing usable is skipped with a
reason and an error.
-/

namespace McRouter

namespace Kubernetes

open Strings Unicode Netip

/-- `ServicePort`. -/
structure ServicePort where
  name : GoString
  port : ℤ
deriving DecidableEq

/-- `ServiceInput`. -/
structure ServiceInput where
  name : GoString
  namespace_ : GoString
  annotations : GoMap GoString GoString
  ports : List ServicePort
deriving DecidableEq

/-- `DiscoveredRoute`. -/
structure DiscoveredRoute where
  host : GoString
  backend : GoString
deriving DecidableEq, Repr

/-- The skip reasons. -/
inductive SkipReason where
  | disabled
  | invalidPrefix
  | invalidServiceName
  | invalidNamespace
  | missingHost
  | invalidHost
  | missingPort
  | invalidPort
  | portNotFound
  | duplicateHost
  | unknown
deriving DecidableEq, Repr

/-- The reason as the code spells it. -/
def SkipReason.text : SkipReason → GoString
  | disabled => go "disabled"
  | invalidPrefix => go "invalid_annotation_prefix"
  | invalidServiceName => go "invalid_service_name"
  | invalidNamespace => go "invalid_namespace"
  | missingHost => go "missing_host"
  | invalidHost => go "invalid_host"
  | missingPort => go "missing_port"
  | invalidPort => go "invalid_port"
  | portNotFound => go "port_not_found"
  | duplicateHost => go "duplicate_host"
  | unknown => go "unknown"

theorem SkipReason.text_injective : Function.Injective SkipReason.text := by
  intro a b h
  cases a <;> cases b <;> first | rfl | (exact absurd h (by decide +kernel))

/-- A skipped `ParseResult`. -/
structure Skip where
  reason : SkipReason
  err : Option Err
deriving DecidableEq

/-- `DefaultAnnotationPrefix`. -/
def defaultAnnotationPrefix : GoString := go "mc-router.alexandergg.com"

/-- `validateAnnotationPrefix`. -/
def validateAnnotationPrefix (annotationPrefix : GoString) : Option Err :=
  if trimSpace annotationPrefix = [] then some ⟨go "annotation prefix must not be empty", []⟩
  else if trimSpace annotationPrefix ≠ annotationPrefix then
    some ⟨go "annotation prefix must not contain leading or trailing whitespace", []⟩
  else if 47 ∈ annotationPrefix then some ⟨go "annotation prefix must not contain /", []⟩
  else match HostAddr.normalize annotationPrefix with
    | .error err => some err
    | .ok normalized =>
      if normalized ≠ annotationPrefix then
        some ⟨go "annotation prefix must be a canonical lowercase DNS subdomain", []⟩
      else none

/-- `serviceHasPort`. -/
def serviceHasPort (ports : List ServicePort) (port : ℤ) : Bool := ports.any (·.port == port)

/-- The annotation `<prefix>/<name>`. -/
def ServiceInput.annotated (service : ServiceInput) (annotationPrefix name : GoString) :
    Option GoString :=
  service.annotations.lookup (annotationPrefix ++ go "/" ++ name)

/-- An annotation that is there and not blank. -/
def notBlank (value : Option GoString) : Option GoString := value.filter fun v => trimSpace v ≠ []

/-- `ParseServiceAnnotations`, from the host annotation on. -/
def parseHostAndPort (annotationPrefix : GoString) (service : ServiceInput) :
    Except Skip DiscoveredRoute :=
  match notBlank (service.annotated annotationPrefix (go "host")) with
  | none => .error ⟨.missingHost, some ⟨go "host annotation is required", []⟩⟩
  | some hostValue =>
    match HostAddr.normalize hostValue with
    | .error err => .error ⟨.invalidHost, some err⟩
    | .ok host =>
      match notBlank (service.annotated annotationPrefix (go "port")) with
      | none => .error ⟨.missingPort, some ⟨go "port annotation is required", []⟩⟩
      | some portValue =>
        match (atoi (trimSpace portValue)).filter (fun p => 1 ≤ p ∧ p ≤ 65535) with
        | none => .error
            ⟨.invalidPort, some ⟨go "port annotation must be an integer from 1 to 65535", []⟩⟩
        | some port =>
          if !serviceHasPort service.ports port then
            .error ⟨.portNotFound,
              some ⟨go "port " ++ itoaInt port ++ go " is not present in service ports", []⟩⟩
          else .ok ⟨host, joinHostPort
            (service.name ++ go "." ++ service.namespace_ ++ go ".svc.cluster.local") (itoaInt port)⟩

/-- `ParseServiceAnnotations`. -/
def parseServiceAnnotations (annotationPrefix : GoString) (service : ServiceInput) :
    Except Skip DiscoveredRoute :=
  match validateAnnotationPrefix annotationPrefix with
  | some err => .error ⟨.invalidPrefix, some err⟩
  | none =>
    if service.annotated annotationPrefix (go "enabled") ≠ some (go "true") then
      .error ⟨.disabled, none⟩
    else if !Config.isDNSLabel service.name then
      .error ⟨.invalidServiceName,
        some ⟨go "service name " ++ quote service.name ++ go " must be a DNS label", []⟩⟩
    else if !Config.isDNSLabel service.namespace_ then
      .error ⟨.invalidNamespace,
        some ⟨go "namespace " ++ quote service.namespace_ ++ go " must be a DNS label", []⟩⟩
    else parseHostAndPort annotationPrefix service

end Kubernetes

end McRouter
