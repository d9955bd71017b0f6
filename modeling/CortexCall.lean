import CortexCall.Main
import CortexCall.Runner
import CortexCall.Proofs.SingleCall
import CortexCall.Proofs.EscapedLiteral
import CortexCall.Proofs.CallSlots
import CortexCall.Proofs.InterruptedRequest
import CortexCall.Proofs.DeterminedPayload
import CortexCall.Proofs.DispatchOutcome
import CortexCall.Proofs.RepeatedDispatch
import CortexCall.Proofs.FaithfulEcho
import CortexCall.Proofs.EquivalentRequests
import CortexCall.Proofs.CommandAgreement
import CortexCall.Proofs.Disclosure
import CortexCall.Proofs.CallGrammar
import CortexCall.Proofs.ReadAsWritten
import CortexCall.Proofs.EmbeddedJson
import CortexCall.Proofs.DistinctCategories
import CortexCall.Proofs.MergedOptions
import CortexCall.Proofs.BuiltStatement
import CortexCall.Proofs.CompletionForms
import CortexCall.Proofs.FileForms
import CortexCall.Proofs.ConservedMembers
import CortexCall.Proofs.CapitalForms
import CortexCall.Proofs.DocumentedVariables
import CortexCall.Proofs.SourceOrder
import CortexCall.Proofs.StrayMembers
