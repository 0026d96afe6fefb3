import DesiredState.Schema

/-!
# The catalog

The kinds of resources that are managed. A node pool is identified by its plan alone, so that a
change of its size resizes the pool in place.
-/

set_option autoImplicit false

namespace DesiredState

namespace Catalog

def fixed (name : String) (kind : FieldKind) : FieldSpec := ⟨name, kind, false, false, false⟩

def mutable (name : String) (kind : FieldKind) : FieldSpec := ⟨name, kind, true, false, false⟩

def clearable (name : String) (kind : FieldKind) : FieldSpec := ⟨name, kind, true, true, false⟩

def identifying (name : String) (kind : FieldKind) : FieldSpec :=
  ⟨name, kind, false, false, true⟩

def lkeCluster : Schema where
  kind := "lke_cluster"
  fields := [mutable "label" .string, fixed "region" .string, mutable "k8s_version" .string,
    mutable "tags" .list, mutable "control_plane" .object]
  slots := .independent
  children := ["lke_node_pool"]

def lkeNodePool : Schema where
  kind := "lke_node_pool"
  fields := [identifying "type" .string, mutable "count" .integer, mutable "autoscaler" .object,
    mutable "tags" .list]
  slots := .independent
  children := []

def firewall : Schema where
  kind := "firewall"
  fields := [mutable "label" .string, mutable "status" .string, mutable "tags" .list]
  slots := .independent
  children := ["firewall_rule"]

def firewallRule : Schema where
  kind := "firewall_rule"
  fields := [identifying "label" .string, mutable "direction" .string, mutable "action" .string,
    mutable "protocol" .string, clearable "ports" .string, mutable "addresses" .object,
    clearable "description" .string]
  slots := .sharedSlot ["label"]
  children := []

def computeInstance : Schema where
  kind := "instance"
  fields := [mutable "label" .string, fixed "region" .string, fixed "type" .string,
    fixed "image" .string, mutable "tags" .list, clearable "group" .string]
  slots := .independent
  children := ["instance_interface"]

def instanceInterface : Schema where
  kind := "instance_interface"
  fields := [identifying "purpose" .string, ⟨"label", .string, false, true, true⟩,
    clearable "ipam_address" .string, mutable "primary" .boolean]
  slots := .sharedSlot ["purpose"]
  children := []

def nodebalancer : Schema where
  kind := "nodebalancer"
  fields := [mutable "label" .string, fixed "region" .string,
    mutable "client_conn_throttle" .integer, mutable "tags" .list]
  slots := .independent
  children := ["nodebalancer_node"]

def nodebalancerNode : Schema where
  kind := "nodebalancer_node"
  fields := [identifying "label" .string, mutable "address" .string, mutable "weight" .integer,
    mutable "mode" .string]
  slots := .sharedSlot ["address"]
  children := []

def all : List Schema :=
  [lkeCluster, lkeNodePool, firewall, firewallRule, computeInstance, instanceInterface, nodebalancer,
    nodebalancerNode]

def schema? (kind : String) : Option Schema := all.find? (·.kind == kind)

end Catalog

end DesiredState
