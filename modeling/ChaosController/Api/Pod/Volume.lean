/-
  ChaosController.Api.Pod.Volume

  The forms of volumes in the spec of a pod.

  A volume names one source. Which sources there are and what they hold is the API server's;
  here they are only checked.
-/

import ChaosController.Experiment.Wire

namespace ChaosController.PodForm

open Form

/-! ## Selectors and references -/

/-- A condition on the values of a label. -/
def labelSelectorRequirement : Form :=
  .record "LabelSelectorRequirement" [("key", text), ("operator", text), ("values", texts)] []

/-- A condition on labels. -/
def labelSelector : Form :=
  .record "LabelSelector"
    [("matchExpressions", .list labelSelectorRequirement), ("matchLabels", textMap)] []

/-- A reference to an object of the same namespace. -/
def localObjectReference : Form := .record "LocalObjectReference" [("name", text)] []

/-- A reference to a field of the pod. -/
def objectFieldSelector : Form :=
  .record "ObjectFieldSelector" [("apiVersion", text), ("fieldPath", text)] []

/-- A reference to a resource of a container. -/
def resourceFieldSelector : Form :=
  .record "ResourceFieldSelector"
    [("containerName", text), ("divisor", text), ("resource", text)] []

/-- A source with a file system and a secret. -/
def fileSystemSource (name : String) (members : List (String × Form)) : Form :=
  .record name
    ([("fsType", text), ("readOnly", flag), ("secretRef", localObjectReference)] ++ members) []

/-! ## Sources of one volume -/

def keyToPath : Form := .record "KeyToPath" [("key", text), ("mode", int32), ("path", text)] []

def downwardApiFile : Form :=
  .record "DownwardAPIVolumeFile"
    [("fieldRef", objectFieldSelector), ("mode", int32), ("path", text),
      ("resourceFieldRef", resourceFieldSelector)] []

def claimSpec : Form :=
  .record "PersistentVolumeClaimSpec"
    [("accessModes", texts),
      ("dataSource", .record "TypedLocalObjectReference"
        [("apiGroup", text), ("kind", text), ("name", text)] []),
      ("dataSourceRef", .record "TypedObjectReference"
        [("apiGroup", text), ("kind", text), ("name", text), ("namespace", text)] []),
      ("resources", .record "VolumeResourceRequirements"
        [("limits", textMap), ("requests", textMap)] []),
      ("selector", labelSelector), ("storageClassName", text),
      ("volumeAttributesClassName", text), ("volumeMode", text), ("volumeName", text)] []

def claimTemplate : Form :=
  .record "PersistentVolumeClaimTemplate" [("metadata", Metadata.form), ("spec", claimSpec)] []

def configMapSource : Form :=
  .record "ConfigMapVolumeSource"
    [("defaultMode", int32), ("items", .list keyToPath), ("name", text), ("optional", flag)] []

def secretSource : Form :=
  .record "SecretVolumeSource"
    [("defaultMode", int32), ("items", .list keyToPath), ("optional", flag),
      ("secretName", text)] []

def downwardApiSource : Form :=
  .record "DownwardAPIVolumeSource"
    [("defaultMode", int32), ("items", .list downwardApiFile)] []

def diskSource : Form :=
  .record "AzureDiskVolumeSource"
    [("cachingMode", text), ("diskName", text), ("diskURI", text), ("fsType", text),
      ("kind", text), ("readOnly", flag)] []

def csiSource : Form :=
  .record "CSIVolumeSource"
    [("driver", text), ("fsType", text), ("nodePublishSecretRef", localObjectReference),
      ("readOnly", flag), ("volumeAttributes", textMap)] []

def iscsiSource : Form :=
  fileSystemSource "ISCSIVolumeSource"
    [("chapAuthDiscovery", flag), ("chapAuthSession", flag), ("initiatorName", text),
      ("iqn", text), ("iscsiInterface", text), ("lun", int32), ("portals", texts),
      ("targetPortal", text)]

def scaleIoSource : Form :=
  fileSystemSource "ScaleIOVolumeSource"
    [("gateway", text), ("protectionDomain", text), ("sslEnabled", flag), ("storageMode", text),
      ("storagePool", text), ("system", text), ("volumeName", text)]

/-! ## Projected volumes -/

def volumeProjection : Form :=
  .record "VolumeProjection"
    [("clusterTrustBundle", .record "ClusterTrustBundleProjection"
        [("labelSelector", labelSelector), ("name", text), ("optional", flag), ("path", text),
          ("signerName", text)] []),
      ("configMap", .record "ConfigMapProjection"
        [("items", .list keyToPath), ("name", text), ("optional", flag)] []),
      ("downwardAPI", .record "DownwardAPIProjection" [("items", .list downwardApiFile)] []),
      ("secret", .record "SecretProjection"
        [("items", .list keyToPath), ("name", text), ("optional", flag)] []),
      ("serviceAccountToken", .record "ServiceAccountTokenProjection"
        [("audience", text), ("expirationSeconds", int64), ("path", text)] [])] []

def projectedSource : Form :=
  .record "ProjectedVolumeSource"
    [("defaultMode", int32), ("sources", .list volumeProjection)] []

/-! ## Volumes -/

/-- A volume. -/
def volume : Form :=
  .record "Volume"
    [("awsElasticBlockStore", .record "AWSElasticBlockStoreVolumeSource"
        [("fsType", text), ("partition", int32), ("readOnly", flag), ("volumeID", text)] []),
      ("azureDisk", diskSource),
      ("azureFile", .record "AzureFileVolumeSource"
        [("readOnly", flag), ("secretName", text), ("shareName", text)] []),
      ("cephfs", .record "CephFSVolumeSource"
        [("monitors", texts), ("path", text), ("readOnly", flag), ("secretFile", text),
          ("secretRef", localObjectReference), ("user", text)] []),
      ("cinder", fileSystemSource "CinderVolumeSource" [("volumeID", text)]),
      ("configMap", configMapSource),
      ("csi", csiSource),
      ("downwardAPI", downwardApiSource),
      ("emptyDir", .record "EmptyDirVolumeSource" [("medium", text), ("sizeLimit", text)] []),
      ("ephemeral", .record "EphemeralVolumeSource"
        [("volumeClaimTemplate", claimTemplate)] []),
      ("fc", .record "FCVolumeSource"
        [("fsType", text), ("lun", int32), ("readOnly", flag), ("targetWWNs", texts),
          ("wwids", texts)] []),
      ("flexVolume", fileSystemSource "FlexVolumeSource"
        [("driver", text), ("options", textMap)]),
      ("flocker", .record "FlockerVolumeSource"
        [("datasetName", text), ("datasetUUID", text)] []),
      ("gcePersistentDisk", .record "GCEPersistentDiskVolumeSource"
        [("fsType", text), ("partition", int32), ("pdName", text), ("readOnly", flag)] []),
      ("gitRepo", .record "GitRepoVolumeSource"
        [("directory", text), ("repository", text), ("revision", text)] []),
      ("glusterfs", .record "GlusterfsVolumeSource"
        [("endpoints", text), ("path", text), ("readOnly", flag)] []),
      ("hostPath", .record "HostPathVolumeSource" [("path", text), ("type", text)] []),
      ("image", .record "ImageVolumeSource" [("pullPolicy", text), ("reference", text)] []),
      ("iscsi", iscsiSource),
      ("name", text),
      ("nfs", .record "NFSVolumeSource"
        [("path", text), ("readOnly", flag), ("server", text)] []),
      ("persistentVolumeClaim", .record "PersistentVolumeClaimVolumeSource"
        [("claimName", text), ("readOnly", flag)] []),
      ("photonPersistentDisk", .record "PhotonPersistentDiskVolumeSource"
        [("fsType", text), ("pdID", text)] []),
      ("portworxVolume", .record "PortworxVolumeSource"
        [("fsType", text), ("readOnly", flag), ("volumeID", text)] []),
      ("projected", projectedSource),
      ("quobyte", .record "QuobyteVolumeSource"
        [("group", text), ("readOnly", flag), ("registry", text), ("tenant", text),
          ("user", text), ("volume", text)] []),
      ("rbd", fileSystemSource "RBDVolumeSource"
        [("image", text), ("keyring", text), ("monitors", texts), ("pool", text),
          ("user", text)]),
      ("scaleIO", scaleIoSource),
      ("secret", secretSource),
      ("storageos", fileSystemSource "StorageOSVolumeSource"
        [("volumeName", text), ("volumeNamespace", text)]),
      ("vsphereVolume", .record "VsphereVirtualDiskVolumeSource"
        [("fsType", text), ("storagePolicyID", text), ("storagePolicyName", text),
          ("volumePath", text)] [])] []

end ChaosController.PodForm
