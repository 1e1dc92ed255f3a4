import DeliveryCharts.Digest.NameId
import DeliveryCharts.Text.Utf8

/-!
Identity of the artifacts that a stage is expected to produce.
-/

namespace DeliveryCharts.Stage

/-- The namespace of all artifact ids; another one would change every id. -/
def artifactSpace : List UInt8 :=
  [0xe8, 0xb7, 0x64, 0xda, 0x5f, 0xe5, 0x51, 0xed, 0x8a, 0xf8, 0xc5, 0xc6, 0xec, 0xa2, 0x8d, 0x7a]

/-- The same names always give the same id. -/
def artifactId (displayName stageName : String) : String :=
  .ofList (Digest.idText (Digest.nameId artifactSpace
    (Text.utf8String displayName ++ Text.utf8String stageName)))

end DeliveryCharts.Stage
