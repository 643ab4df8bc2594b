import BrowserActions.Action.Decode
import BrowserActions.Element.Decode
import BrowserActions.Json.Typed
import BrowserActions.Main
import BrowserActions.Proofs.Json.RoundTrip
import BrowserActions.Proofs.Reply.RoundTrip
import BrowserActions.Proofs.Reply.Pairs
import BrowserActions.Proofs.Reply.Replay
import BrowserActions.Proofs.Selector.Overrun
import BrowserActions.Proofs.Command.Outcome
import BrowserActions.Proofs.Config.RoundTrip
import BrowserActions.Proofs.Operation.Agreement
import BrowserActions.Proofs.Wait.Interruption
import BrowserActions.Proofs.Wait.Timeline
import BrowserActions.Proofs.Wait.Cancellation
import BrowserActions.Proofs.Wait.Settled
import BrowserActions.Proofs.Schema.Field
import BrowserActions.Proofs.Schema.Language
import BrowserActions.Proofs.Schema.Report
import BrowserActions.Proofs.Action.Assembly
import BrowserActions.Proofs.Json.Stable
import BrowserActions.Proofs.Action.HandOff
import BrowserActions.Proofs.Command.Effective
import BrowserActions.Proofs.Config.Lookup
import BrowserActions.Proofs.Wait.History
import BrowserActions.Proofs.Wait.Budget
import BrowserActions.Proofs.Script
import BrowserActions.Proofs.Selector.Value
import BrowserActions.Proofs.Reply.First
import BrowserActions.Proofs.Reply.Delivery
import BrowserActions.Proofs.Selector.Normal
import BrowserActions.Proofs.Config.Overlay
import BrowserActions.Proofs.Element.Verdict
import BrowserActions.Proofs.Element.Described
import BrowserActions.Proofs.Wait.Wrapped
