import AmpmGsm.Ring.Ringbuf
import AmpmGsm.Ring.Interrupt
import AmpmGsm.Ring.PacketRuns
import AmpmGsm.Proto.RoundTrip
import AmpmGsm.Proto.Soundness
import AmpmGsm.Proto.Burst
import AmpmGsm.Cmd.Retry
import AmpmGsm.Lib.Gates
import AmpmGsm.Gsm.Sending
import AmpmGsm.Gsm.SendChain
import AmpmGsm.Gsm.SmsSound
import AmpmGsm.Gsm.Matcher
import AmpmGsm.Gsm.UrcParser
import AmpmGsm.Gsm.UrcStores
import AmpmGsm.Gsm.AnswerStores
import AmpmGsm.Gsm.ParserPair
import AmpmGsm.Flash.Scan
import AmpmGsm.Flash.TwoFiles
import AmpmGsm.Flash.Reader
import AmpmGsm.Flash.Allocation
import AmpmGsm.Flash.Append
import AmpmGsm.Flash.Filled
import AmpmGsm.Gsm.IndexQueue
import AmpmGsm.Flash.Volume
import AmpmGsm.Gps.Acceptance
import AmpmGsm.Gps.InRange
import AmpmGsm.Gps.KeepsFix
import AmpmGsm.Gps.GsvScan
import AmpmGsm.Gps.InUse
import AmpmGsm.Gps.TimeField
import AmpmGsm.Gps.Receiver
import AmpmGsm.Gps.Constellation
import AmpmGsm.Flash.Failures
import AmpmGsm.Flash.Effects
import AmpmGsm.Gsm.StatusCell
import AmpmGsm.Gsm.Septets
import AmpmGsm.Gsm.Ringing
import AmpmGsm.Gsm.SmsPeriodic
import AmpmGsm.Gsm.CallTask
import AmpmGsm.Gsm.MainFrame
import AmpmGsm.Gsm.PlainCmd
import AmpmGsm.Gsm.DialUp
import AmpmGsm.Gsm.MainTask
import AmpmGsm.Gsm.MainBranches
import AmpmGsm.Gsm.MainEnds
import AmpmGsm.Gsm.Reinit
import AmpmGsm.Gsm.DataCall
import AmpmGsm.Gsm.DataMode
import AmpmGsm.Gsm.LeaveData
import AmpmGsm.Gsm.ReadMsg
import AmpmGsm.Gsm.PduDeliver
import AmpmGsm.Gsm.PduSubmit
import AmpmGsm.Gsm.IdleReport
import AmpmGsm.Proto.Encoder
import AmpmGsm.Ring.PacketBuffer
import AmpmGsm.Gsm.PhoneNumber
import AmpmGsm.Gsm.StrCounters
import AmpmGsm.Text.UniSearch
import AmpmGsm.Text.Utf8
import AmpmGsm.Time.Conversion
import AmpmGsm.Gsm.DeliverRoundTrip
import AmpmGsm.Flash.WriteRange
import AmpmGsm.Text.Formats
import AmpmGsm.Gsm.SendSms
import AmpmGsm.Gsm.FreshTexts
import AmpmGsm.Flash.Stray
import AmpmGsm.Flash.Reopen
import AmpmGsm.List.ListRuns
import AmpmGsm.Dtmf.DtmfRuns
import AmpmGsm.Flash.Recovery
import AmpmGsm.Flash.Accounting
import AmpmGsm.Flash.Durable
import AmpmGsm.Flash.Lasting
