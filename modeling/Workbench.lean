import Workbench.Network.Delivery
import Workbench.Network.Pacer
import Workbench.Network.Initialize
import Workbench.Network.Addressing
import Workbench.Network.Buffering
import Workbench.Network.Outage
import Workbench.Network.Readiness
import Workbench.Network.Recording
import Workbench.Network.Congestion
import Workbench.Network.Contents
import Workbench.Tracing.Consistency
import Workbench.Tracing.History
import Workbench.Tracing.Custody
import Workbench.Tracing.Bandwidth
import Workbench.Tracing.Turn
import Workbench.Tracing.Statistics
import Workbench.Tracing.Anomalies
import Workbench.Tracing.Iteration
import Workbench.Tracing.Holdings
import Workbench.Tracing.Usage
import Workbench.Tracing.Expected
import Workbench.Tracing.Following
import Workbench.Tracing.Delays
import Workbench.Tracing.ReplayLog
import Workbench.Network.Telling
import Workbench.Network.Uneventful
import Workbench.Network.Clearing
import Workbench.Network.Neighbours
import Workbench.Quinn.EcnCc
import Workbench.Tracing.Refusals
import Workbench.Tracing.Outages
import Workbench.Network.TimeToLive
import Workbench.Network.Connectivity
import Workbench.Network.Ordering
import Workbench.Network.Survival
import Workbench.Library.RoundRobin
import Workbench.Network.Scheduling
import Workbench.Network.Offers
import Workbench.Network.Preference
import Workbench.Network.Pausing
import Workbench.Network.Handover
import Workbench.Network.Socket
import Workbench.Library.Oneshot
import Workbench.Network.Notifiers
import Workbench.Library.Firsts
import Workbench.Network.Schedule
import Workbench.Network.LinkEvents
import Workbench.Network.Injections
import Workbench.Tracing.Reordering
import Workbench.Tracing.Stepper
import Workbench.Tracing.BufferCheck
import Workbench.Tracing.Burden
import Workbench.Library.Prefix
import Workbench.Network.Ip
import Workbench.Library.Layout
import Workbench.Network.PcapExporter
import Workbench.Library.Workers
import Workbench.Quic.Client
import Workbench.Quic.Requests
import Workbench.Library.Endings
import Workbench.Tracing.Acceptance
import Workbench.Tracing.Description
import Workbench.Tracing.Complaints
import Workbench.Network.Quiescence
import Workbench.Tracing.Announcements
import Workbench.Tracing.Sources
import Workbench.Tracing.Approval
import Workbench.Tracing.Admission
import Workbench.Network.Timetable
import Workbench.Library.Ticker
import Workbench.Tracing.LinkStatistics
import Workbench.Udp.Deadlines
import Workbench.Udp.Echo
import Workbench.Udp.OneDirection
import Workbench.Udp.Throughput
import Workbench.Network.Provenance
import Workbench.Library.Bytes
import Workbench.Network.KeyLog
import Workbench.Network.Captures
import Workbench.Network.Undisturbed
import Workbench.Library.Walk
import Workbench.Network.Hops
import Workbench.Network.Copies
