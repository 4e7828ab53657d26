import VaultOperator.Resource.Connection

/-!
The declarations of mounts: of secrets engines and of auth methods.
-/

namespace VaultOperator.Mount

/-- The settings of a mount that can be changed later. Lifetimes are durations. -/
structure Tuning where
  defaultLeaseTtl : Option String := none
  maxLeaseTtl : Option String := none
  forceNoCache : Option Bool := none
  auditNonHmacRequestKeys : List String := []
  auditNonHmacResponseKeys : List String := []
  listingVisibility : Option String := none
  passthroughRequestHeaders : List String := []
  allowedResponseHeaders : List String := []
  deriving DecidableEq, Repr

structure Definition where
  /-- The parent path; the mount stands below it under its name. -/
  path : String := ""
  name : Option String := none
  /-- What is mounted. It cannot be changed later. -/
  type : String
  description : Option String := none
  config : Tuning := {}
  isLocal : Bool := false
  sealWrap : Bool := false
  options : Dict String := ∅
  deriving DecidableEq, Repr

structure SecretSpec where
  access : Access
  mount : Definition
  externalEntropyAccess : Bool := false
  deriving DecidableEq, Repr

structure AuthSpec where
  access : Access
  mount : Definition
  deriving DecidableEq, Repr

namespace Tuning

def reader : Json.Reader Tuning := do
  return {
    defaultLeaseTtl := ← Json.optional "defaultLeaseTtl" Json.str?
    maxLeaseTtl := ← Json.optional "maxLeaseTtl" Json.str?
    forceNoCache := ← Json.optional "forceNoCache" Json.bool?
    auditNonHmacRequestKeys :=
      ← Json.withDefault "auditNonHmacRequestKeys" [] (Json.listOf Json.str?)
    auditNonHmacResponseKeys :=
      ← Json.withDefault "auditNonHmacResponseKeys" [] (Json.listOf Json.str?)
    listingVisibility := ← Json.optional "listingVisibility" Json.str?
    passthroughRequestHeaders :=
      ← Json.withDefault "passthroughRequestHeaders" [] (Json.listOf Json.str?)
    allowedResponseHeaders :=
      ← Json.withDefault "allowedResponseHeaders" [] (Json.listOf Json.str?) }

def toJson (t : Tuning) : Json :=
  Json.record
    [("defaultLeaseTtl", Json.ofOption .str t.defaultLeaseTtl),
      ("maxLeaseTtl", Json.ofOption .str t.maxLeaseTtl),
      ("forceNoCache", Json.ofOption .bool t.forceNoCache),
      ("auditNonHmacRequestKeys", Json.ofStrings t.auditNonHmacRequestKeys),
      ("auditNonHmacResponseKeys", Json.ofStrings t.auditNonHmacResponseKeys),
      ("listingVisibility", Json.ofOption .str t.listingVisibility),
      ("passthroughRequestHeaders", Json.ofStrings t.passthroughRequestHeaders),
      ("allowedResponseHeaders", Json.ofStrings t.allowedResponseHeaders)]

end Tuning

namespace Definition

def reader : Json.Reader Definition := do
  return {
    path := ← Json.withDefault "path" "" Json.str?
    name := ← Json.optional "name" Json.str?
    type := ← Json.required "type" Json.str?
    description := ← Json.optional "description" Json.str?
    config := ← Json.withDefault "config" {} (Json.structure? Tuning.reader)
    isLocal := ← Json.withDefault "local" false Json.bool?
    sealWrap := ← Json.withDefault "sealWrap" false Json.bool?
    options := ← Json.withDefault "options" ∅ (Json.dictOf Json.str?) }

def fields (d : Definition) : List (String × Json) :=
  [("path", .str d.path), ("name", Json.ofOption .str d.name), ("type", .str d.type),
    ("description", Json.ofOption .str d.description), ("config", d.config.toJson),
    ("local", .bool d.isLocal), ("sealWrap", .bool d.sealWrap),
    ("options", Json.ofDict (d.options.map .str))]

end Definition

namespace SecretSpec

def reader : Json.Reader SecretSpec := do
  return {
    access := ← Access.reader
    mount := ← Definition.reader
    externalEntropyAccess := ← Json.withDefault "externalEntropyAccess" false Json.bool? }

def ofJson? : Json → Option SecretSpec :=
  Json.object? reader

def toJson (s : SecretSpec) : Json :=
  Json.record (s.access.fields ++ s.mount.fields ++
    [("externalEntropyAccess", .bool s.externalEntropyAccess)])

end SecretSpec

namespace AuthSpec

def reader : Json.Reader AuthSpec := do
  return { access := ← Access.reader, mount := ← Definition.reader }

def ofJson? : Json → Option AuthSpec :=
  Json.object? reader

def toJson (s : AuthSpec) : Json :=
  Json.record (s.access.fields ++ s.mount.fields)

end AuthSpec

end VaultOperator.Mount
