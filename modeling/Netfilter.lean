import Netfilter.Main
import Netfilter.Settings.Json
import Netfilter.Symbols
import Netfilter.Wire.Tree
import Netfilter.Proofs.Wire.TreeReading
import Netfilter.Proofs.Link.Query
import Netfilter.Proofs.Queue.Exactness
import Netfilter.Proofs.Traffic.Correspondence
import Netfilter.Proofs.Pool.Waiting
import Netfilter.Proofs.Queue.Handshake
import Netfilter.Proofs.Queue.VerdictMessage
import Netfilter.Proofs.Queue.BringUp
import Netfilter.Proofs.NotOpen
import Netfilter.Proofs.Log.Item
import Netfilter.Proofs.Log.Next
import Netfilter.Proofs.Log.Intake
import Netfilter.Proofs.Queue.Serving
import Netfilter.Proofs.Batching
import Netfilter.Proofs.Checked.Basic
import Netfilter.Proofs.Checked.Wire
import Netfilter.Proofs.Checked.Log
import Netfilter.Proofs.Checked.Reception
import Netfilter.Proofs.Link.Custody
import Netfilter.Proofs.Link.Released
import Netfilter.Proofs.Queue.Shutdown
import Netfilter.Proofs.Queue.Reinjection
import Netfilter.Proofs.Wire.Value
import Netfilter.Proofs.Wire.Fields
import Netfilter.Proofs.Queue.Single
import Netfilter.Proofs.Queue.Notification
import Netfilter.Proofs.Log.Decoding
import Netfilter.Proofs.Requests.Errand
import Netfilter.Proofs.Requests.Letters
import Netfilter.Proofs.Requests.Handles
import Netfilter.Proofs.CommandLine.Answering
import Netfilter.Proofs.Queue.Configured
import Netfilter.Proofs.Queue.Sockets
import Netfilter.Proofs.Log.Rollout
import Netfilter.Proofs.Wire.Framing
import Netfilter.Proofs.Wire.AttributeList
import Netfilter.Proofs.Wire.Making
import Netfilter.Proofs.Checked.Making
import Netfilter.Proofs.Wire.MessageList
import Netfilter.Proofs.Checked.Tables
import Netfilter.Proofs.Queue.Flags
import Netfilter.Proofs.CommandLine.OneLine
import Netfilter.Proofs.CommandLine.Showing
import Netfilter.Proofs.Settings.Editing
import Netfilter.Proofs.Log.Ipv4
import Netfilter.Proofs.Wire.Text
