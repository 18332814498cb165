/-
  ChaosController.Api.Pod.Form

  The form of a pod.

  Of a pod only the metadata is kept. Its spec and its status are checked, because a response
  that holds anything else than pods is not taken for a list of pods.
-/

import ChaosController.Api.Pod.Container

namespace ChaosController.PodForm

open Form

/-! ## Placement -/

def nodeSelectorRequirement : Form :=
  .record "NodeSelectorRequirement" [("key", text), ("operator", text), ("values", texts)] []

def nodeSelectorTerm : Form :=
  .record "NodeSelectorTerm"
    [("matchExpressions", .list nodeSelectorRequirement),
      ("matchFields", .list nodeSelectorRequirement)] []

def nodeAffinity : Form :=
  .record "NodeAffinity"
    [("preferredDuringSchedulingIgnoredDuringExecution", .list (.record
        "PreferredSchedulingTerm" [("preference", nodeSelectorTerm), ("weight", int32)] [])),
      ("requiredDuringSchedulingIgnoredDuringExecution", .record "NodeSelector"
        [("nodeSelectorTerms", .list nodeSelectorTerm)] [])] []

def podAffinityTerm : Form :=
  .record "PodAffinityTerm"
    [("labelSelector", labelSelector), ("matchLabelKeys", texts), ("mismatchLabelKeys", texts),
      ("namespaceSelector", labelSelector), ("namespaces", texts), ("topologyKey", text)] []

/-- Which pods a pod wants to be near to, or far from. -/
def podAffinity (name : String) : Form :=
  .record name
    [("preferredDuringSchedulingIgnoredDuringExecution", .list (.record
        "WeightedPodAffinityTerm" [("podAffinityTerm", podAffinityTerm), ("weight", int32)] [])),
      ("requiredDuringSchedulingIgnoredDuringExecution", .list podAffinityTerm)] []

def affinity : Form :=
  .record "Affinity"
    [("nodeAffinity", nodeAffinity), ("podAffinity", podAffinity "PodAffinity"),
      ("podAntiAffinity", podAffinity "PodAntiAffinity")] []

def toleration : Form :=
  .record "Toleration"
    [("effect", text), ("key", text), ("operator", text), ("tolerationSeconds", int64),
      ("value", text)] []

def topologySpreadConstraint : Form :=
  .record "TopologySpreadConstraint"
    [("labelSelector", labelSelector), ("matchLabelKeys", texts), ("maxSkew", int32),
      ("minDomains", int32), ("nodeAffinityPolicy", text), ("nodeTaintsPolicy", text),
      ("topologyKey", text), ("whenUnsatisfiable", text)] []

/-! ## Specs -/

def dnsConfig : Form :=
  .record "PodDNSConfig"
    [("nameservers", texts),
      ("options", .list (.record "PodDNSConfigOption" [("name", text), ("value", text)] [])),
      ("searches", texts)] []

def podSecurityContext : Form :=
  .record "PodSecurityContext"
    [("appArmorProfile", appArmorProfile), ("fsGroup", int64), ("fsGroupChangePolicy", text),
      ("runAsGroup", int64), ("runAsNonRoot", flag), ("runAsUser", int64),
      ("seLinuxChangePolicy", text), ("seLinuxOptions", seLinuxOptions),
      ("seccompProfile", seccompProfile), ("supplementalGroups", .list int64),
      ("supplementalGroupsPolicy", text),
      ("sysctls", .list (.record "Sysctl" [("name", text), ("value", text)] [])),
      ("windowsOptions", windowsOptions)] []

/-- The spec of a pod. -/
def spec : Form :=
  .record "PodSpec"
    [("activeDeadlineSeconds", int64), ("affinity", affinity),
      ("automountServiceAccountToken", flag), ("containers", .list container),
      ("dnsConfig", dnsConfig), ("dnsPolicy", text), ("enableServiceLinks", flag),
      ("ephemeralContainers", .list ephemeralContainer),
      ("hostAliases", .list (.record "HostAlias" [("hostnames", texts), ("ip", text)] [])),
      ("hostIPC", flag), ("hostNetwork", flag), ("hostPID", flag), ("hostUsers", flag),
      ("hostname", text), ("imagePullSecrets", .list localObjectReference),
      ("initContainers", .list container), ("nodeName", text), ("nodeSelector", textMap),
      ("os", .record "PodOS" [("name", text)] []), ("overhead", textMap),
      ("preemptionPolicy", text), ("priority", int32), ("priorityClassName", text),
      ("readinessGates", .list (.record "PodReadinessGate" [("conditionType", text)] [])),
      ("resourceClaims", .list (.record "PodResourceClaim"
        [("name", text), ("resourceClaimName", text), ("resourceClaimTemplateName", text)] [])),
      ("resources", resourceRequirements), ("restartPolicy", text), ("runtimeClassName", text),
      ("schedulerName", text),
      ("schedulingGates", .list (.record "PodSchedulingGate" [("name", text)] [])),
      ("securityContext", podSecurityContext), ("serviceAccount", text),
      ("serviceAccountName", text), ("setHostnameAsFQDN", flag),
      ("shareProcessNamespace", flag), ("subdomain", text),
      ("terminationGracePeriodSeconds", int64), ("tolerations", .list toleration),
      ("topologySpreadConstraints", .list topologySpreadConstraint),
      ("volumes", .list volume)] []

/-! ## Statuses -/

def podCondition : Form :=
  .record "PodCondition"
    [("lastProbeTime", time), ("lastTransitionTime", time), ("message", text),
      ("reason", text), ("status", text), ("type", text)] []

def containerState : Form :=
  .record "ContainerState"
    [("running", .record "ContainerStateRunning" [("startedAt", time)] []),
      ("terminated", .record "ContainerStateTerminated"
        [("containerID", text), ("exitCode", int32), ("finishedAt", time), ("message", text),
          ("reason", text), ("signal", int32), ("startedAt", time)] []),
      ("waiting", .record "ContainerStateWaiting" [("message", text), ("reason", text)] [])] []

def containerUser : Form :=
  .record "ContainerUser"
    [("linux", .record "LinuxContainerUser"
      [("gid", int64), ("supplementalGroups", .list int64), ("uid", int64)] [])] []

def resourceStatus : Form :=
  .record "ResourceStatus"
    [("name", text),
      ("resources", .list (.record "ResourceHealth"
        [("health", text), ("resourceID", text)] []))] []

def volumeMountStatus : Form :=
  .record "VolumeMountStatus"
    [("mountPath", text), ("name", text), ("readOnly", flag), ("recursiveReadOnly", text)] []

def containerStatus : Form :=
  .record "ContainerStatus"
    [("allocatedResources", textMap), ("allocatedResourcesStatus", .list resourceStatus),
      ("containerID", text), ("image", text), ("imageID", text), ("lastState", containerState),
      ("name", text), ("ready", flag), ("resources", resourceRequirements),
      ("restartCount", int32), ("started", flag), ("state", containerState),
      ("user", containerUser), ("volumeMounts", .list volumeMountStatus)] []

/-- The status of a pod. -/
def status : Form :=
  .record "PodStatus"
    [("conditions", .list podCondition), ("containerStatuses", .list containerStatus),
      ("ephemeralContainerStatuses", .list containerStatus), ("hostIP", text),
      ("hostIPs", .list (.record "HostIP" [("ip", text)] [])),
      ("initContainerStatuses", .list containerStatus), ("message", text),
      ("nominatedNodeName", text), ("phase", text), ("podIP", text),
      ("podIPs", .list (.record "PodIP" [("ip", text)] [])), ("qosClass", text),
      ("reason", text), ("resize", text),
      ("resourceClaimStatuses", .list (.record "PodResourceClaimStatus"
        [("name", text), ("resourceClaimName", text)] [])),
      ("startTime", time)] []

/-! ## Pods -/

/-- A pod. -/
def pod : Form :=
  .record "Pod"
    [("apiVersion", .exactly "v1"), ("kind", .exactly "Pod"), ("metadata", Metadata.form),
      ("spec", spec), ("status", status)] []

end ChaosController.PodForm
