import PageDispatch.Logging.Sampling
import PageDispatch.Main
import PageDispatch.Script.Collaborators
import PageDispatch.Script.FileTree
import PageDispatch.Script.GatedPool
import PageDispatch.Script.HeaderWork
import PageDispatch.Script.Session
import PageDispatch.Snapshot.Settings
import PageDispatch.Json.Reader
import PageDispatch.Proofs.Dispatch.Lock
import PageDispatch.Proofs.Dispatch.Priority
import PageDispatch.Proofs.Run.Merging
import PageDispatch.Proofs.Response.Grouping
import PageDispatch.Proofs.Dispatch.Isolation
import PageDispatch.Proofs.Run.Deferral
import PageDispatch.Proofs.Response.Lengths
import PageDispatch.Proofs.Dispatch.Silence
import PageDispatch.Proofs.Dispatch.Reports
import PageDispatch.Proofs.Run.Panics
import PageDispatch.Proofs.Run.History
import PageDispatch.Proofs.Run.View
import PageDispatch.Proofs.Run.Order
import PageDispatch.Proofs.Dispatch.Balance
import PageDispatch.Proofs.Run.Mirror
import PageDispatch.Proofs.Dispatch.Guidance
import PageDispatch.Proofs.Dispatch.Discretion
import PageDispatch.Proofs.Chain.Handover
import PageDispatch.Proofs.Response.Succession
import PageDispatch.Proofs.Dispatch.Admission
import PageDispatch.Proofs.Dispatch.LastResort
import PageDispatch.Proofs.Machine.Conservation
import PageDispatch.Proofs.Response.Values
import PageDispatch.Proofs.Chain.Routing
import PageDispatch.Proofs.Response.Streaming
import PageDispatch.Proofs.Chain.Cache
import PageDispatch.Proofs.Response.Typed
import PageDispatch.Proofs.Request.Fields
import PageDispatch.Proofs.Request.Identifiers
import PageDispatch.Proofs.Response.Head
import PageDispatch.Proofs.Numeral.Reading
import PageDispatch.Proofs.Config.Environment
import PageDispatch.Proofs.Yaml.Entries
import PageDispatch.Proofs.Config.Record
import PageDispatch.Proofs.Config.Document
import PageDispatch.Proofs.Response.Modified
import PageDispatch.Proofs.Config.Size
import PageDispatch.Proofs.Logging.Sampling
