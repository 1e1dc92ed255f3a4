import DeliveryCharts.Coerce
import DeliveryCharts.Error
import DeliveryCharts.Json.Shape
import DeliveryCharts.Record

/-!
Applications as the platform stores them.
-/

namespace DeliveryCharts.Manifest

open Json (Fault Shape)
open Record (field)

/-- The groups that may act on an application. -/
structure Permissions where
  execute : List String := []
  read : List String := []
  write : List String := []
  deriving DecidableEq, Repr

namespace Permissions

/-- Each key has a second spelling; only one of the two may be used. -/
def decode (ms : Members) : Except Fault Permissions := do
  let execute ← field ms "EXECUTE" [] Coerce.stringList
  let read ← field ms "READ" [] Coerce.stringList
  let write ← field ms "WRITE" [] Coerce.stringList
  let execute ← Record.eitherField ms "EXECUTE" "execute" execute Coerce.stringList
  let read ← Record.eitherField ms "READ" "read" read Coerce.stringList
  let write ← Record.eitherField ms "WRITE" "write" write Coerce.stringList
  return { execute, read, write }

def ofJson : Json → Except Fault Permissions :=
  Record.read .document "Permissions" ["EXECUTE", "READ", "WRITE"] decode

def toJson (p : Permissions) : Json :=
  .obj [("EXECUTE", Record.strings p.execute), ("READ", Record.strings p.read),
    ("WRITE", Record.strings p.write)]

end Permissions

structure Application where
  cloudProviders : String := ""
  email : String := ""
  /-- The name of the manifest in lower case. -/
  name : String := ""
  permissions : Permissions := {}
  deriving DecidableEq, Repr

/-- A value is read whole and decoded for its faults alone. -/
def leaf (read : Json → Except Fault α) : Shape := .whole fun v ↦ (read v).map fun _ ↦ ()

namespace Application

def decode (ms : Members) : Except Fault Application := do
  let cloudProviders ← field ms "cloudProviders" "" Coerce.string
  let email ← field ms "email" "" Coerce.string
  let name ← field ms "name" "" Coerce.string
  let permissions ← field ms "permissions" {} Permissions.ofJson
  return { cloudProviders, email, name, permissions }

def ofJson : Json → Except Fault Application :=
  Record.read .document "Application" ["cloudProviders", "email", "name", "permissions"] decode

/-- The members in the order in which a manifest shows them. -/
def encode (a : Application) : List (String × Json) :=
  [("cloudProviders", .str a.cloudProviders), ("email", .str a.email), ("name", .str a.name),
    ("permissions", a.permissions.toJson)]

def toJson (a : Application) : Json := .obj a.encode

def shape : Shape :=
  .record "Application" [
    (["cloudProviders"], leaf Coerce.string), (["email"], leaf Coerce.string),
    (["name"], leaf Coerce.string),
    (["permissions"], .record "Permissions" [
      (["EXECUTE", "execute"], leaf Coerce.stringList), (["READ", "read"], leaf Coerce.stringList),
      (["WRITE", "write"], leaf Coerce.stringList)])]

/-- Decodes what the platform has stored; what it adds is ignored. -/
def ofPlatform (payload : Text.Bytes) : Except Error Application :=
  (shape.parse (Text.received payload) >>= ofJson).mapError fun e ↦
    .decode "existing application" e.message

end Application

end DeliveryCharts.Manifest
