import HeadScout.Main
import HeadScout.Catalog
import HeadScout.Proofs.Webhook.Grouping
import HeadScout.Proofs.Webhook.Processing
import HeadScout.Proofs.Discovery.Context
import HeadScout.Proofs.Discovery.Filter
import HeadScout.Proofs.Discovery.Scan
import HeadScout.Proofs.Json.Record
import HeadScout.Proofs.Json.Storable
import HeadScout.Proofs.Webhook.RefLimit
import HeadScout.Proofs.Navigator
import HeadScout.Proofs.Client.Paging
import HeadScout.Proofs.Client.Pages
import HeadScout.Proofs.Client.Listing
import HeadScout.Proofs.Json.Shape
import HeadScout.Proofs.Webhook.PushForms
import HeadScout.Proofs.Webhook.PushReading
import HeadScout.Proofs.Webhook.PushDelivery
import HeadScout.Proofs.Client.Confinement
import HeadScout.Proofs.Discovery.FailOpen
import HeadScout.Proofs.Webhook.AffectedHeads
import HeadScout.Proofs.Webhook.Ledger
import HeadScout.Proofs.Webhook.Settling
import HeadScout.Proofs.Webhook.DelayedSending
import HeadScout.Proofs.Repository
import HeadScout.Proofs.Discovery.Soundness
import HeadScout.Proofs.Discovery.Outsiders
import HeadScout.Proofs.Discovery.BuiltOnce
import HeadScout.Proofs.Json.Printing
import HeadScout.Proofs.Calendar
import HeadScout.Proofs.Timestamp
import HeadScout.Proofs.DeliveryId
import HeadScout.Proofs.Json.Writing
import HeadScout.Proofs.StoredForm
import HeadScout.Proofs.Discovery.TraitOrder
import HeadScout.Proofs.Webhook.Matching
import HeadScout.Proofs.Json.Replacing
import HeadScout.Proofs.Webhook.ChangeEntries
import HeadScout.Proofs.Discovery.Identity
import HeadScout.Proofs.Discovery.Checkout
import HeadScout.Proofs.WellFormed
import HeadScout.Proofs.Json.SameAt
import HeadScout.Proofs.Webhook.UnknownMembers
import HeadScout.Proofs.Client.RepositoryForms
import HeadScout.Proofs.Client.RepositoryReading
import HeadScout.Proofs.Client.Agreement
import HeadScout.Proofs.Text.Trimming
import HeadScout.Proofs.Text.Numeral
import HeadScout.Proofs.Webhook.Settings
import HeadScout.Proofs.Webhook.Acknowledgement
import HeadScout.Proofs.Json.OneLine
import HeadScout.Proofs.Command.Draining
import HeadScout.Proofs.Command.Lines
import HeadScout.Proofs.Command.Replay
import HeadScout.Proofs.Command.Heads
import HeadScout.Proofs.Webhook.Partition
import HeadScout.Proofs.CloudAddress
