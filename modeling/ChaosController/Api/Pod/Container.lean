/-
  ChaosController.Api.Pod.Container

  The forms of containers in the spec of a pod.
-/

import ChaosController.Api.Pod.Volume

namespace ChaosController.PodForm

open Form

/-! ## Environment -/

/-- A key of a config map or a secret. -/
def keySelector (name : String) : Form :=
  .record name [("key", text), ("name", text), ("optional", flag)] []

/-- A config map or a secret as a whole. -/
def environmentSource (name : String) : Form :=
  .record name [("name", text), ("optional", flag)] []

/-- An environment variable. -/
def environmentVariable : Form :=
  .record "EnvVar"
    [("name", text), ("value", text),
      ("valueFrom", .record "EnvVarSource"
        [("configMapKeyRef", keySelector "ConfigMapKeySelector"),
          ("fieldRef", objectFieldSelector), ("resourceFieldRef", resourceFieldSelector),
          ("secretKeyRef", keySelector "SecretKeySelector")] [])] []

/-- Environment variables from elsewhere. -/
def environmentFrom : Form :=
  .record "EnvFromSource"
    [("configMapRef", environmentSource "ConfigMapEnvSource"), ("prefix", text),
      ("secretRef", environmentSource "SecretEnvSource")] []

/-! ## Actions and probes -/

def execAction : Form := .record "ExecAction" [("command", texts)] []

def httpGetAction : Form :=
  .record "HTTPGetAction"
    [("host", text),
      ("httpHeaders", .list (.record "HTTPHeader" [("name", text), ("value", text)] [])),
      ("path", text), ("port", textOrNumber), ("scheme", text)] []

def tcpSocketAction : Form :=
  .record "TCPSocketAction" [("host", text), ("port", textOrNumber)] []

/-- What is done when a container starts or stops. -/
def lifecycleHandler : Form :=
  .record "LifecycleHandler"
    [("exec", execAction), ("httpGet", httpGetAction),
      ("sleep", .record "SleepAction" [("seconds", int64)] []),
      ("tcpSocket", tcpSocketAction)] []

/-- How it is found out whether a container is well. -/
def probe : Form :=
  .record "Probe"
    [("exec", execAction), ("failureThreshold", int32),
      ("grpc", .record "GRPCAction" [("port", int32), ("service", text)] []),
      ("httpGet", httpGetAction), ("initialDelaySeconds", int32), ("periodSeconds", int32),
      ("successThreshold", int32), ("tcpSocket", tcpSocketAction),
      ("terminationGracePeriodSeconds", int64), ("timeoutSeconds", int32)] []

/-! ## Resources and security -/

/-- What a container asks of its node. -/
def resourceRequirements : Form :=
  .record "ResourceRequirements"
    [("claims", .list (.record "ResourceClaim" [("name", text), ("request", text)] [])),
      ("limits", textMap), ("requests", textMap)] []

def appArmorProfile : Form :=
  .record "AppArmorProfile" [("localhostProfile", text), ("type", text)] []

def seLinuxOptions : Form :=
  .record "SELinuxOptions" [("level", text), ("role", text), ("type", text), ("user", text)] []

def seccompProfile : Form :=
  .record "SeccompProfile" [("localhostProfile", text), ("type", text)] []

def windowsOptions : Form :=
  .record "WindowsSecurityContextOptions"
    [("gmsaCredentialSpec", text), ("gmsaCredentialSpecName", text), ("hostProcess", flag),
      ("runAsUserName", text)] []

/-- What a container may do. -/
def securityContext : Form :=
  .record "SecurityContext"
    [("allowPrivilegeEscalation", flag), ("appArmorProfile", appArmorProfile),
      ("capabilities", .record "Capabilities" [("add", texts), ("drop", texts)] []),
      ("privileged", flag), ("procMount", text), ("readOnlyRootFilesystem", flag),
      ("runAsGroup", int64), ("runAsNonRoot", flag), ("runAsUser", int64),
      ("seLinuxOptions", seLinuxOptions), ("seccompProfile", seccompProfile),
      ("windowsOptions", windowsOptions)] []

/-! ## Containers -/

def containerPort : Form :=
  .record "ContainerPort"
    [("containerPort", int32), ("hostIP", text), ("hostPort", int32), ("name", text),
      ("protocol", text)] []

def volumeMount : Form :=
  .record "VolumeMount"
    [("mountPath", text), ("mountPropagation", text), ("name", text), ("readOnly", flag),
      ("recursiveReadOnly", text), ("subPath", text), ("subPathExpr", text)] []

/-- The members that all containers have. -/
def containerMembers : List (String × Form) :=
  [("args", texts), ("command", texts), ("env", .list environmentVariable),
    ("envFrom", .list environmentFrom), ("image", text), ("imagePullPolicy", text),
    ("lifecycle", .record "Lifecycle"
      [("postStart", lifecycleHandler), ("preStop", lifecycleHandler)] []),
    ("livenessProbe", probe), ("name", text), ("ports", .list containerPort),
    ("readinessProbe", probe),
    ("resizePolicy", .list (.record "ContainerResizePolicy"
      [("resourceName", text), ("restartPolicy", text)] [])),
    ("resources", resourceRequirements), ("restartPolicy", text),
    ("securityContext", securityContext), ("startupProbe", probe), ("stdin", flag),
    ("stdinOnce", flag), ("terminationMessagePath", text), ("terminationMessagePolicy", text),
    ("tty", flag),
    ("volumeDevices", .list (.record "VolumeDevice" [("devicePath", text), ("name", text)] [])),
    ("volumeMounts", .list volumeMount), ("workingDir", text)]

/-- A container. -/
def container : Form := .record "Container" containerMembers []

/-- A container that is put into a pod that runs. -/
def ephemeralContainer : Form :=
  .record "EphemeralContainer" (("targetContainerName", text) :: containerMembers) []

end ChaosController.PodForm
