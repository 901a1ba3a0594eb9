import HdlcMarquee.Hdlc.Acceptance
import HdlcMarquee.Hdlc.Burst
import HdlcMarquee.Hdlc.Distance
import HdlcMarquee.Hdlc.DocumentedLoop
import HdlcMarquee.Hdlc.IndexRange
import HdlcMarquee.Hdlc.Remainder
import HdlcMarquee.Hdlc.Segments
import HdlcMarquee.Client.Sending
import HdlcMarquee.Client.Cutting
import HdlcMarquee.Client.Handshake
import HdlcMarquee.Client.Refusals
import HdlcMarquee.Client.Deliveries
import HdlcMarquee.Client.Sharing
import HdlcMarquee.Client.RawFrame
import HdlcMarquee.Client.Countdown
import HdlcMarquee.Client.Link
import HdlcMarquee.Client.Main
import HdlcMarquee.Uart.Interrupt
import HdlcMarquee.Uart.Send
import HdlcMarquee.Uart.Receive
import HdlcMarquee.Uart.Timer
import HdlcMarquee.Lcd.Print
import HdlcMarquee.Sketch.ConnectLoop
import HdlcMarquee.Lcd.Marquee
