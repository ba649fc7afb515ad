import Salias.Registration.Gate
import Salias.Registration.HandshakeSafety
import Salias.Registration.ProducerId
import Salias.Registration.Recovery
import Salias.Registration.Stale
import Salias.Registration.ProcessStart
import Salias.Channel.FlowSafety
import Salias.Channel.Resume
import Salias.Channel.ContentsSafety
import Salias.Channel.Delivery
import Salias.Channel.BorrowingSafety
import Salias.Channel.ClaimFailure
import Salias.Channel.Overlap
import Salias.Channel.BatchLayout
import Salias.FastRing.Delivery
import Salias.FastRing.Storage
import Salias.Notification.TicketSafety
import Salias.Notification.WakeupSafety
import Salias.HybridMpsc.Resume
import Salias.HybridMpsc.Offer
import Salias.FixedChannel.Publisher
import Salias.FixedChannel.Subscriber
import Salias.FastRing.Bypass
import Salias.Flow.Refinement
