import DataRepository.Exchange.Traffic
import DataRepository.Main
import DataRepository.Proofs.Access.Acceptance
import DataRepository.Proofs.Access.Credentials
import DataRepository.Proofs.Access.Denials
import DataRepository.Proofs.Access.Reports
import DataRepository.Proofs.Exchange.Alike
import DataRepository.Proofs.Exchange.Coherence
import DataRepository.Proofs.Exchange.Concurrency
import DataRepository.Proofs.Exchange.Creation
import DataRepository.Proofs.Exchange.Dispatch
import DataRepository.Proofs.Exchange.Errors
import DataRepository.Proofs.Exchange.Failed
import DataRepository.Proofs.Exchange.Forged
import DataRepository.Proofs.Exchange.Origin
import DataRepository.Proofs.Exchange.ReadBack
import DataRepository.Proofs.Exchange.Retries
import DataRepository.Proofs.Json.Measures
import DataRepository.Proofs.Json.Reading
import DataRepository.Proofs.Json.Size
import DataRepository.Proofs.Json.Spending
import DataRepository.Proofs.Patch.Addressing
import DataRepository.Proofs.Patch.Agreement
import DataRepository.Proofs.Patch.Descent
import DataRepository.Proofs.Patch.Effects
import DataRepository.Proofs.Patch.Growth
import DataRepository.Proofs.Patch.Inverse
import DataRepository.Proofs.Patch.Items
import DataRepository.Proofs.Patch.Sequence
import DataRepository.Proofs.Problem.Members
import DataRepository.Proofs.Routing.Allowed
import DataRepository.Proofs.Routing.Chain
import DataRepository.Proofs.Routing.Normal
import DataRepository.Proofs.Server.Abandoned
import DataRepository.Proofs.Server.Calls
import DataRepository.Proofs.Server.Closing
import DataRepository.Proofs.Server.Requests
import DataRepository.Proofs.Server.Steps
import DataRepository.Proofs.Settings.Layered
import DataRepository.Proofs.Settings.TokenKey
import DataRepository.Proofs.Settings.Verbatim
import DataRepository.Proofs.Tls.KeyLogFile
