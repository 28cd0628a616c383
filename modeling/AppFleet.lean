import AppFleet.Application.Operation
import AppFleet.Bus.Opening
import AppFleet.Main
import AppFleet.Message.Catalog
import AppFleet.Proofs.Application.Generation
import AppFleet.Proofs.Application.Period
import AppFleet.Proofs.Bus.Client
import AppFleet.Proofs.Bus.Frames
import AppFleet.Proofs.Bus.Requests
import AppFleet.Proofs.Config.RoundTrip
import AppFleet.Proofs.Dispatch.Adjust
import AppFleet.Proofs.Dispatch.Malformed
import AppFleet.Proofs.Dispatch.Remaining
import AppFleet.Proofs.Dispatch.Stop
import AppFleet.Proofs.Fleet.Failed
import AppFleet.Proofs.Fleet.Lawful
import AppFleet.Proofs.Fleet.Reactions
import AppFleet.Proofs.Fleet.Routes
import AppFleet.Proofs.Fleet.ScaleUp
import AppFleet.Proofs.Fleet.SlowNodes
import AppFleet.Proofs.Ledger.Reports
import AppFleet.Proofs.Ledger.Slots
import AppFleet.Proofs.Application.Retried
import AppFleet.Proofs.Dispatch.FollowUp
import AppFleet.Proofs.Application.Rejected
import AppFleet.Proofs.Fleet.Creates
import AppFleet.Proofs.Dispatch.Restage
import AppFleet.Proofs.Dispatch.Starts
import AppFleet.Proofs.Health.Counts
import AppFleet.Proofs.Ledger.Heartbeats
import AppFleet.Proofs.Fleet.Settled
import AppFleet.Proofs.Dispatch.Stands
import AppFleet.Proofs.Node.RollCall
import AppFleet.Proofs.Dispatch.Blamed
