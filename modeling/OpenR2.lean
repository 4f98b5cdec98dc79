import OpenR2.Proofs.LineSignal
import OpenR2.Proofs.Disconnected
import OpenR2.Proofs.AniBuffer
import OpenR2.Proofs.Teardown
import OpenR2.Proofs.Setup
import OpenR2.Proofs.Glare
import OpenR2.Proofs.ChannelList
import OpenR2.Proofs.Blocked
import OpenR2.Proofs.InAlarm
import OpenR2.Proofs.LateTimers
import OpenR2.Proofs.SingleTimers
import OpenR2.Proofs.Persistence
import OpenR2.Proofs.HeldSeize
import OpenR2.Proofs.NothingProceeds
import OpenR2.Proofs.DigitHangUp
import OpenR2.Proofs.DnisStop
import OpenR2.Proofs.DnisComplete
import OpenR2.Proofs.DnisKept
import OpenR2.Proofs.AniComplete
import OpenR2.Proofs.OfferedCategory
import OpenR2.Proofs.DnisSent
import OpenR2.Proofs.AniWithheld
import OpenR2.Proofs.CallMode
import OpenR2.Proofs.Rejection
import OpenR2.Proofs.ImmediateAccept
import OpenR2.Proofs.ToneThreshold
import OpenR2.Proofs.ApiFailures
import OpenR2.Proofs.Answering
import OpenR2.Proofs.DtmfSilence
import OpenR2.Proofs.AcceptedFirst
import OpenR2.Proofs.Metering
import OpenR2.Proofs.Resending
import OpenR2.Proofs.NextEvent
import OpenR2.Proofs.AdvancedFile
import OpenR2.Proofs.Repeats
import OpenR2.Proofs.AlarmCleared
import OpenR2.Proofs.ReceivedSignal
import OpenR2.Proofs.EngineUsable
import OpenR2.Proofs.QueueMessages
import OpenR2.Proofs.Hearing
import OpenR2.Proofs.MfTones
import OpenR2.Proofs.Alaw
import OpenR2.Proofs.DtmfCall
import OpenR2.Proofs.CallOffered
