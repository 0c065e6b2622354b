import Orrery.Federation.Attestation
import Orrery.Foundation.Hex
import Orrery.Index.AttestationGate

/-! The two verifiers of an attestation, of the server and of the index, side by side. They
share base64, base58 and the encoder; each has an Ed25519 library of its own. -/
namespace Orrery.Index
open Foundation Json Chapter Federation

section Agreement
variable {v : Verifiers} {attestation : Json} {now : ℚ}

end Agreement

section Samples

end Samples
end Orrery.Index
